import NpuDriver.Device.InOrderQueue
import NpuDriver.Proof.FencedRuns

/-! The command buffers of an in-order queue: where they lie, what the device reads of them, and what the patches of
their submissions leave alone. -/

namespace NpuDriver

open Library VPUCommandBuffer

/-- What of a command buffer stays the same while its job is submitted. -/
structure Place where
  buffer : VPUBufferObject
  users : Nat

def Place.fenceAddress (place : Place) : Nat := (place.buffer.vpuAddr + fenceValueOffset) % 2 ^ 64

def VPUCommandBuffer.place (cb : VPUCommandBuffer) : Place := ⟨cb.buffer, cb.userCount⟩

theorem VPUCommandBuffer.Extends.place {cb patched : VPUCommandBuffer} (extends_ : cb.Extends patched) :
    patched.place = cb.place := by
  rw [VPUCommandBuffer.place, userCount, extends_.buffer, extends_.commandsBegin, extends_.commandsEnd]
  rfl

namespace InOrderQueue

variable {state : InOrderQueue} {slot other : Slot} {cb : VPUCommandBuffer}

@[simp] theorem bufferAt_mapBuffers (state : InOrderQueue) (change : VPUCommandBuffer → VPUCommandBuffer) (slot : Slot) :
    (state.mapBuffers change).bufferAt slot = (state.bufferAt slot).map change := by
  simp only [bufferAt, mapBuffers, List.getElem?_map]
  cases state.jobs[slot.job]? with
  | none => rfl
  | some job => simp

@[simp] theorem count_mapBuffers (state : InOrderQueue) (change : VPUCommandBuffer → VPUCommandBuffer) (job : Nat) :
    (state.mapBuffers change).count job = state.count job := by
  simp only [count, mapBuffers, List.getElem?_map]
  cases state.jobs[job]? with
  | none => rfl
  | some job => simp

theorem mapBuffers_id (state : InOrderQueue) : state.mapBuffers id = state := by
  simp [mapBuffers]

theorem bufferAt_modifyJob (state : InOrderQueue) (job : Nat) (change : VPUJob → VPUJob)
    (kept : ∀ job, (change job).cmdBuffers = job.cmdBuffers) (slot : Slot) :
    (state.modifyJob job change).bufferAt slot = state.bufferAt slot := by
  simp only [bufferAt, modifyJob, List.getElem?_modify]
  cases state.jobs[slot.job]? with
  | none => rfl
  | some held =>
    simp only [Option.map_eq_map, Option.map_some, Option.bind_some]
    split
    · rw [kept]
    · rfl

theorem count_modifyJob (state : InOrderQueue) (job : Nat) (change : VPUJob → VPUJob)
    (kept : ∀ job, (change job).cmdBuffers.length = job.cmdBuffers.length) (other : Nat) :
    (state.modifyJob job change).count other = state.count other := by
  simp only [count, modifyJob, List.getElem?_modify]
  cases state.jobs[other]? with
  | none => rfl
  | some held =>
    simp only [Option.map_eq_map, Option.map_some, Option.getD_some]
    split
    · rw [kept]
    · rfl

@[simp] theorem count_setBuffer (state : InOrderQueue) (slot : Slot) (cb : VPUCommandBuffer) (job : Nat) :
    (state.setBuffer slot cb).count job = state.count job :=
  state.count_modifyJob slot.job _ (fun job => by simp) job

theorem bufferAt_setBuffer_self {old : VPUCommandBuffer} (found : state.bufferAt slot = some old) :
    (state.setBuffer slot cb).bufferAt slot = some cb := by
  obtain ⟨job, held, inside⟩ := Option.bind_eq_some_iff.mp found
  obtain ⟨below, -⟩ := List.getElem?_eq_some_iff.mp inside
  simp [bufferAt, setBuffer, modifyJob, held, below]

theorem bufferAt_setBuffer_of_ne (state : InOrderQueue) (cb : VPUCommandBuffer) (different : other ≠ slot) :
    (state.setBuffer slot cb).bufferAt other = state.bufferAt other := by
  simp only [bufferAt, setBuffer, modifyJob, List.getElem?_modify]
  cases state.jobs[other.job]? with
  | none => rfl
  | some held =>
    simp only [Option.map_eq_map, Option.map_some, Option.bind_some]
    split
    · rename_i same
      have apart : slot.index ≠ other.index := by
        intro index
        exact different (by cases slot; cases other; simp_all)
      exact List.getElem?_set_ne apart
    · rfl

theorem bufferAt_isSome : (state.bufferAt slot).isSome = true ↔ slot.index < state.count slot.job := by
  simp only [bufferAt, count]
  cases state.jobs[slot.job]? with
  | none => simp
  | some job => simp

theorem waitPasses_iff {fence : FenceCommand} :
    state.waitPasses fence = true ↔
      ∀ slot, ∀ cb ∈ state.bufferAt slot, cb.fenceAddress = fence.address → fence.value ≤ cb.fenceValue := by
  simp only [waitPasses, List.all_eq_true, Bool.or_eq_true, decide_eq_true_eq, ne_eq, bufferAt]
  constructor
  · intro all slot cb found here
    obtain ⟨job, held, inside⟩ := Option.bind_eq_some_iff.mp found
    exact (all job (List.mem_of_getElem? held) cb (List.mem_of_getElem? inside)).resolve_left (absurd here)
  · intro each job held cb inside
    obtain ⟨place, placed⟩ := List.mem_iff_getElem?.mp held
    obtain ⟨index, found⟩ := List.mem_iff_getElem?.mp inside
    by_cases here : cb.fenceAddress = fence.address
    · refine .inr (each ⟨place, index⟩ cb ?_ here)
      exact Option.mem_def.mpr (Option.bind_eq_some_iff.mpr ⟨job, placed, found⟩)
    · exact .inl here

end InOrderQueue

/-- A command that names the fence word of no command buffer. -/
def NamesNone (places : Slot → Option Place) (bytes : List UInt8) : Prop :=
  ∀ fence, decodeFence bytes = some fence → ∀ slot place, places slot = some place → place.fenceAddress ≠ fence.address

/-- The head of a command buffer that waits for another one, or for none. -/
inductive HeadReads (places : Slot → Option Place) : Option Slot → List (List UInt8) → Prop where
  | free : HeadReads places none []
  | waits {target : Slot} {place : Place} {wait second : List UInt8} (there : places target = some place)
      (waits : decodeFence wait = some ⟨VPU_CMD_FENCE_WAIT, place.fenceAddress, STATE_WAIT⟩)
      (resets : ∀ fence, decodeFence second = some fence →
        fence = ⟨VPU_CMD_FENCE_SIGNAL, place.fenceAddress, STATE_DEVICE_RESET⟩) :
      HeadReads places (some target) [wait, second]

/-- What the device reads of a command buffer: in the end it signals its own fence. -/
inductive ReadsFor (places : Slot → Option Place) (slot : Slot) (waitsFor : Option Slot) : List (List UInt8) → Prop where
  | reads {head users : List (List UInt8)} {closing : List UInt8} {place : Place} (there : places slot = some place)
      (heading : HeadReads places waitsFor head) (count : users.length = place.users)
      (silent : ∀ bytes ∈ users, NamesNone places bytes)
      (signals : decodeFence closing = some ⟨VPU_CMD_FENCE_SIGNAL, place.fenceAddress, STATE_DEVICE_SIGNAL⟩) :
      ReadsFor places slot waitsFor (head ++ users ++ [closing])

/-- A command in front of the last one: it raises no fence word, and it waits for none but the expected one at the
start. -/
structure Inner (places : Slot → Option Place) (waitsFor : Option Slot) (executed : Nat) (bytes : List UInt8) : Prop where
  low : ∀ fence, decodeFence bytes = some fence → fence.type ≠ VPU_CMD_FENCE_WAIT →
    ∀ slot place, places slot = some place → place.fenceAddress = fence.address → fence.value < STATE_WAIT
  waits : ∀ fence, decodeFence bytes = some fence → fence.type = VPU_CMD_FENCE_WAIT →
    (∃ target place, waitsFor = some target ∧ executed = 0 ∧ places target = some place ∧
      fence = ⟨VPU_CMD_FENCE_WAIT, place.fenceAddress, STATE_WAIT⟩) ∨
    ∀ slot place, places slot = some place → place.fenceAddress ≠ fence.address
  first : executed = 0 → ∀ target, waitsFor = some target → ∃ place, places target = some place ∧
    decodeFence bytes = some ⟨VPU_CMD_FENCE_WAIT, place.fenceAddress, STATE_WAIT⟩

/-- The last command, which is the only one only without a wait. -/
structure Closing (places : Slot → Option Place) (slot : Slot) (waitsFor : Option Slot) (executed : Nat)
    (bytes : List UInt8) : Prop where
  signals : ∃ place, places slot = some place ∧
    decodeFence bytes = some ⟨VPU_CMD_FENCE_SIGNAL, place.fenceAddress, STATE_DEVICE_SIGNAL⟩
  late : executed = 0 → waitsFor = none

theorem NamesNone.inner {places : Slot → Option Place} {waitsFor : Option Slot} {executed : Nat} {bytes : List UInt8}
    (silent : NamesNone places bytes) (late : executed = 0 → waitsFor = none) :
    Inner places waitsFor executed bytes := by
  refine ⟨fun fence decoded _ slot place there same => absurd same (silent fence decoded slot place there),
    fun fence decoded _ => .inr (silent fence decoded), fun start target waits => ?_⟩
  rw [late start] at waits
  cases waits

namespace ReadsFor

variable {places : Slot → Option Place} {slot : Slot} {waitsFor : Option Slot} {commands : List (List UInt8)}

theorem nonempty (reads : ReadsFor places slot waitsFor commands) : commands ≠ [] := by
  cases reads
  exact List.append_ne_nil_of_right_ne_nil _ (List.cons_ne_nil _ _)

/-- The length of what is read, and the number of the user commands in it. -/
theorem length (reads : ReadsFor places slot waitsFor commands) :
    ∃ place, places slot = some place ∧ commands.length = (if waitsFor.isSome then 2 else 0) + place.users + 1 := by
  cases reads with
  | reads there heading count silent signals =>
    refine ⟨_, there, ?_⟩
    rw [List.length_append, List.length_append, count]
    cases heading <;> rfl

theorem next (reads : ReadsFor places slot waitsFor commands) {executed : Nat} {bytes : List UInt8}
    (found : commands[executed]? = some bytes) :
    executed + 1 < commands.length ∧ Inner places waitsFor executed bytes ∨
      executed + 1 = commands.length ∧ Closing places slot waitsFor executed bytes := by
  cases reads with
  | @reads head users closing place there heading count silent signals =>
    have late : head.length ≤ executed → executed = 0 → waitsFor = none := by
      intro behind start
      cases heading with
      | free => rfl
      | waits there waits resets => simp only [List.length_cons, List.length_nil, start] at behind; omega
    by_cases inside : executed < (head ++ users).length
    · left
      refine ⟨by rw [@List.length_append _ _ [closing]]; exact Nat.succ_lt_succ inside, ?_⟩
      rw [List.getElem?_append_left inside] at found
      by_cases front : executed < head.length
      · rw [List.getElem?_append_left front] at found
        cases heading with
        | free => cases found
        | @waits target place wait second known waits resets =>
          cases executed with
          | zero =>
            cases found
            refine ⟨fun fence decoded store => ?_, fun fence decoded _ => .inl ?_, fun _ other same => ?_⟩
            · rw [waits] at decoded
              cases decoded
              exact absurd rfl store
            · exact ⟨target, place, rfl, rfl, known, Option.some.inj (decoded.symm.trans waits)⟩
            · cases same
              exact ⟨place, known, waits⟩
          | succ executed =>
            obtain rfl : executed = 0 := Nat.lt_one_iff.mp (Nat.lt_of_succ_lt_succ front)
            cases found
            refine ⟨fun fence decoded _ _ _ _ _ => ?_, fun fence decoded wait => ?_,
              fun start => absurd start (Nat.succ_ne_zero 0)⟩
            · rw [resets fence decoded]
              exact (by decide : STATE_DEVICE_RESET < STATE_WAIT)
            · rw [resets fence decoded] at wait
              cases wait
      · rw [List.getElem?_append_right (Nat.le_of_not_lt front)] at found
        exact (silent bytes (List.mem_of_getElem? found)).inner (late (Nat.le_of_not_lt front))
    · right
      obtain ⟨below, -⟩ := List.getElem?_eq_some_iff.mp found
      rw [@List.length_append _ _ [closing], List.length_singleton] at below
      have last : executed = (head ++ users).length := by omega
      rw [last, List.getElem?_concat_length] at found
      obtain rfl := Option.some.inj found
      refine ⟨by rw [last, @List.length_append _ _ [closing], List.length_singleton], ⟨place, there, signals⟩, late ?_⟩
      rw [last, List.length_append]
      exact Nat.le_add_right _ _

end ReadsFor

/-- A command buffer that is laid out with a wait at its head, or with none, and with a signal at its end or without
one. -/
def InPlace (ctx : VPUDeviceContext) (places : Slot → Option Place) (waitsFor : Option Slot) (signalled : Bool)
    (cb : VPUCommandBuffer) : Prop :=
  ∃ cmds reset, Layout ctx cb cmds ((waitsFor.bind places).map fun place => (place.buffer, reset)) signalled ∧
    cmds.length = cb.userCount ∧ (∀ cmd ∈ cmds, NamesNone places cmd.getCommitStream) ∧
    ∀ target, waitsFor = some target → ∃ place, places target = some place

namespace InPlace

variable {ctx : VPUDeviceContext} {places : Slot → Option Place} {waitsFor : Option Slot} {signalled : Bool}
  {cb : VPUCommandBuffer}

theorem reads (inPlace : InPlace ctx places waitsFor true cb) {slot : Slot} (there : places slot = some cb.place) :
    ∃ commands, cb.readCommands = some commands ∧ ReadsFor places slot waitsFor commands := by
  obtain ⟨cmds, reset, layout, count, silent, known⟩ := inPlace
  refine ⟨_, layout.readCommands, ?_⟩
  rw [List.map_append, List.map_append]
  apply ReadsFor.reads there
  · cases waitsFor with
    | none => exact .free
    | some target =>
      obtain ⟨place, held⟩ := known target rfl
      simp only [Option.bind_some, held, Option.map_some, headCommands]
      apply HeadReads.waits held
      · exact decodeFence_fenceCommand .Generic place.buffer (.inl rfl) (by decide)
      · intro fence decoded
        cases reset with
        | false =>
          have nop : decodeFence (nopCommand ctx).getCommitStream = some fence := decoded
          rw [decodeFence_nop] at nop
          cases nop
        | true =>
          have stored : decodeFence (resetFenceCommand place.buffer).getCommitStream = some fence := decoded
          rw [resetFenceCommand, decodeFence_fenceCommand .Generic place.buffer (.inr rfl) (by decide)] at stored
          exact (Option.some.inj stored).symm
  · rw [List.length_map, ← (patchAddresses_readdressed _ _ cmds).length_eq, count]
    rfl
  · intro bytes member
    obtain ⟨patched, present, rfl⟩ := List.mem_map.mp member
    obtain ⟨cmd, original, same⟩ := exists_partner (patchAddresses_readdressed _ _ cmds) patched present
    intro fence decoded
    rw [same.decodeFence] at decoded
    exact silent cmd original fence decoded
  · exact decodeFence_fenceCommand .Synchronize cb.buffer (.inr rfl) (by decide)

/-- A command buffer has room for its fence word. -/
theorem room (inPlace : InPlace ctx places waitsFor signalled cb) : fenceValueOffset < cb.buffer.allocSize := by
  obtain ⟨cmds, reset, layout, -⟩ := inPlace
  have start := descriptorStart_le cmds
  have size := layout.allocSize
  simp only [commandListOffset, fenceSize, fenceValueOffset] at start ⊢
  omega

/-- A patch that leaves the commands of the user alone. -/
theorem patched {patched : VPUCommandBuffer} {waitsFor' : Option Slot} {signalled' : Bool}
    (inPlace : InPlace ctx places waitsFor signalled cb) (place : patched.place = cb.place)
    (known : ∀ target, waitsFor' = some target → ∃ place, places target = some place)
    (layouts : ∀ cmds reset, Layout ctx cb cmds ((waitsFor.bind places).map fun place => (place.buffer, reset)) signalled →
      ∃ reset', Layout ctx patched cmds ((waitsFor'.bind places).map fun place => (place.buffer, reset')) signalled') :
    InPlace ctx places waitsFor' signalled' patched := by
  obtain ⟨cmds, reset, layout, count, silent, -⟩ := inPlace
  obtain ⟨reset', kept⟩ := layouts cmds reset layout
  exact ⟨cmds, reset', kept, count.trans (congrArg Place.users place).symm, silent, known⟩

theorem known (inPlace : InPlace ctx places waitsFor signalled cb) :
    ∀ target, waitsFor = some target → ∃ place, places target = some place := by
  obtain ⟨cmds, reset, layout, count, silent, known⟩ := inPlace
  exact known

/-- Whatever leaves the layout alone leaves alone what the device reads. -/
theorem readCommands_eq {patched : VPUCommandBuffer} (inPlace : InPlace ctx places waitsFor signalled cb)
    (buffer : patched.buffer = cb.buffer)
    (layouts : ∀ cmds head, Layout ctx cb cmds head signalled → Layout ctx patched cmds head signalled) :
    patched.readCommands = cb.readCommands := by
  obtain ⟨cmds, reset, layout, -⟩ := inPlace
  rw [(layouts cmds _ layout).readCommands, layout.readCommands, buffer]

theorem addWaitAtHead (inPlace : InPlace ctx places waitsFor signalled cb) {target : Option Slot}
    (known : ∀ slot, target = some slot → ∃ place, places slot = some place)
    (room : ∀ slot place, target = some slot → places slot = some place → fenceValueOffset < place.buffer.allocSize) :
    (cb.addWaitAtHead ctx ((target.bind places).map Place.buffer) true).1 = true ∧
      InPlace ctx places target signalled (cb.addWaitAtHead ctx ((target.bind places).map Place.buffer) true).2 := by
  have success : (cb.addWaitAtHead ctx ((target.bind places).map Place.buffer) true).1 = true := by
    cases target with
    | none => rfl
    | some slot =>
      obtain ⟨place, held⟩ := known slot rfl
      obtain ⟨cmds, reset, layout, -⟩ := inPlace
      have start := descriptorStart_le cmds
      have fits : commandListOffset ≤ cb.buffer.allocSize := by
        rw [layout.allocSize]
        omega
      simp only [Option.bind_some, held, Option.map_some]
      rw [addWaitAtHead_some ctx true layout.mapped fits (room slot place rfl held)]
  refine ⟨success, inPlace.patched (cb.addWaitAtHead_extends ctx _ true).place known fun cmds reset layout => ⟨true, ?_⟩⟩
  have waits := layout.addWaitAtHead ((target.bind places).map Place.buffer) true
  rw [if_pos success, Option.map_map] at waits
  exact waits

theorem addWaitAtHead_fenceValue (inPlace : InPlace ctx places waitsFor signalled cb) (waitFor : Option VPUBufferObject) :
    (cb.addWaitAtHead ctx waitFor true).2.fenceValue = cb.fenceValue := by
  obtain ⟨cmds, reset, layout, -⟩ := inPlace
  exact layout.addWaitAtHead_fenceValue waitFor true

theorem addSelfSignalAtTail (inPlace : InPlace ctx places waitsFor signalled cb) :
    cb.addSelfSignalAtTail.1 = true ∧ InPlace ctx places waitsFor true cb.addSelfSignalAtTail.2 ∧
      cb.addSelfSignalAtTail.2.fenceValue = cb.fenceValue := by
  have kept := inPlace
  obtain ⟨cmds, reset, layout, -⟩ := inPlace
  refine ⟨layout.addSelfSignalAtTail.1, ?_, layout.addSelfSignalAtTail_fenceValue⟩
  exact kept.patched cb.addSelfSignalAtTail_extends.place kept.known fun cmds reset layout =>
    ⟨reset, layout.addSelfSignalAtTail.2⟩

theorem useBusyWait (inPlace : InPlace ctx places waitsFor signalled cb) :
    InPlace ctx places waitsFor true cb.useBusyWait ∧ cb.useBusyWait.fenceValue = STATE_HOST_RESET := by
  have kept := inPlace
  obtain ⟨cmds, reset, layout, -⟩ := inPlace
  exact ⟨kept.patched cb.useBusyWait_extends.place kept.known fun cmds reset layout => ⟨reset, layout.useBusyWait⟩,
    layout.useBusyWait_fenceValue⟩

theorem setFenceValue (inPlace : InPlace ctx places waitsFor signalled cb) (value : Nat) :
    InPlace ctx places waitsFor signalled (cb.setFenceValue value) :=
  inPlace.patched rfl inPlace.known fun _ reset layout => ⟨reset, layout.setFenceValue value⟩

theorem waitForCompletion (inPlace : InPlace ctx places waitsFor signalled cb) :
    InPlace ctx places waitsFor signalled cb.release.resetFenceValue ∧
      cb.release.resetFenceValue.place = cb.place ∧
      cb.release.resetFenceValue.readCommands = cb.readCommands := by
  have same : cb.release.resetFenceValue.place = cb.place := by
    obtain ⟨buffer, first, last, -⟩ := cb.release_frame
    rw [VPUCommandBuffer.place, userCount]
    exact congr (congrArg Place.mk buffer) (congr (congrArg HSub.hSub last) first)
  have layouts : ∀ cmds head, Layout ctx cb cmds head signalled →
      Layout ctx cb.release.resetFenceValue cmds head signalled :=
    fun cmds head layout => layout.release.setFenceValue STATE_HOST_RESET
  refine ⟨inPlace.patched same inPlace.known fun cmds reset layout => ⟨reset, layouts cmds _ layout⟩, same, ?_⟩
  exact inPlace.readCommands_eq (congrArg Place.buffer same) layouts

end InPlace

end NpuDriver
