import NpuDriver.LevelZero.GraphScratch
import NpuDriver.Library.HighWater
import NpuDriver.Proof.ScratchExclusivity

/-! How large the scratch buffers are that inferences are bound to. -/

namespace NpuDriver

open Library

theorem DriverBufferManager.allocate_sharedScratchSize {elf : ElfLibrary} {manager next : DriverBufferManager}
    {buffSpecs : BufferSpecs} {buffer : DeviceBuffer}
    (allocated : manager.allocate elf buffSpecs = .ok (buffer, next)) :
    next.sharedScratchSize = if sharesScratch elf buffSpecs then buffSpecs.size else manager.sharedScratchSize := by
  rw [allocate] at allocated
  by_cases empty : buffSpecs.size = 0
  · rw [if_pos empty] at allocated
    split at allocated
    · cases allocated
    · cases allocated
      simp [sharesScratch, empty]
  · rw [if_neg empty] at allocated
    by_cases shared : buffSpecs.sharable = true ∧ getBufferType elf buffSpecs.procFlags = .WriteCombineDma
    · rw [if_pos shared] at allocated
      cases allocated
      simp [sharesScratch, empty, shared.1, shared.2]
    · rw [if_neg shared] at allocated
      have unshared : sharesScratch elf buffSpecs = false := by
        simpa [sharesScratch, empty] using shared
      split at allocated
      · cases allocated
      · rename_i bo ctx created
        generalize traced : trace { manager with ctx := ctx } bo = outcome at allocated
        cases outcome with
        | error => cases allocated
        | ok kept =>
          cases allocated
          rw [unshared, if_neg Bool.false_ne_true]
          rw [trace] at traced
          split at traced
          · cases traced
          · cases traced
            rfl

/-- Every buffer that the loader had asked for is as large as the scratch buffer at most. -/
def ScratchBinding.LargeEnough (binding : ScratchBinding) : Prop :=
  ∀ size ∈ binding.requested, size ≤ (binding.scratchBuffer.map VPUBufferObject.allocSize).getD 0

instance (binding : ScratchBinding) : Decidable binding.LargeEnough :=
  inferInstanceAs (Decidable (∀ size ∈ binding.requested, _))

namespace ScratchState

variable {state : ScratchState} {index : Nat} {user : ScratchUser}

def sizes (state : ScratchState) : List Nat := state.users.map ScratchUser.inferenceScratchSize

theorem sizes_set (state : ScratchState) (found : state.users[index]? = some user) {other : ScratchUser}
    (same : other.inferenceScratchSize = user.inferenceScratchSize) :
    (state.users.set index other).map ScratchUser.inferenceScratchSize = state.sizes := by
  obtain ⟨inside, rfl⟩ := List.getElem?_eq_some_iff.mp found
  have within : index < state.sizes.length := by rwa [sizes, List.length_map]
  have size : other.inferenceScratchSize = state.sizes[index] := by
    rw [same]
    exact (List.getElem_map _).symm
  rw [List.map_set, size]
  exact List.set_getElem_self within

/-- The entry of the user is the only one that an update changes, and its size stays. -/
theorem updateCommands_users (found : state.users[index]? = some user) :
    ∃ scratch patched, (state.updateCommands index user).users =
      state.users.set index { user with inferenceScratchBuffer := scratch, patched := patched } := by
  rw [updateCommands]
  split
  · refine ⟨user.inferenceScratchBuffer, user.patched, ?_⟩
    obtain ⟨inside, rfl⟩ := List.getElem?_eq_some_iff.mp found
    exact (List.set_getElem_self inside).symm
  · have users := (state.acquire_acquired user.inferenceScratchSize).2.1
    generalize state.acquire user.inferenceScratchSize = answer at users
    obtain ⟨acquired, next⟩ := answer
    cases acquired with
    | none => exact ⟨none, user.patched, congrArg (List.set · index _) users⟩
    | some bo => exact ⟨some bo, some bo, congrArg (List.set · index _) users⟩

theorem updateCommands_sizes (found : state.users[index]? = some user) :
    (state.updateCommands index user).sizes = state.sizes := by
  obtain ⟨scratch, patched, users⟩ := updateCommands_users found
  rw [sizes, users]
  exact state.sizes_set found rfl

theorem prune_sizes (state : ScratchState) (size : Nat) : (state.prune size).sizes = state.sizes := by
  rw [prune]
  split <;> rfl

theorem preload_sizes (state : ScratchState) (size : Nat) : (state.preload size).sizes = state.sizes := by
  rw [preload]
  split
  · rfl
  · rw [sizes, ((state.prune (size - 1)).acquire_acquired size).2.1]
    exact state.prune_sizes (size - 1)

theorem closeCommands_sizes (state : ScratchState) (job size : Nat) :
    (state.closeCommands job [size]).sizes = state.sizes ++ [size] := by
  rw [closeCommands, sizes, List.map_append]
  rfl

theorem destroy_sizes (state : ScratchState) (job : Nat) : (state.destroy job).sizes = state.sizes := by
  rw [destroy, sizes, List.map_map]
  apply List.map_congr_left
  intro user member
  rw [Function.comp_apply]
  split <;> rfl

theorem submit_sizes (state : ScratchState) (index : Nat) (accepted : Bool) :
    (state.step (.submit index accepted)).sizes = state.sizes := by
  simp only [ScratchState.step, withUser]
  split
  · rfl
  · split
    · rw [submit]
      split <;> rfl
    · rfl

theorem complete_sizes (state : ScratchState) (submission : Nat) :
    (state.step (.complete submission)).sizes = state.sizes := rfl

theorem waitForCompletion_sizes (state : ScratchState) (index : Nat) (granted : Bool) :
    (state.step (.waitForCompletion index granted)).sizes = state.sizes := by
  simp only [ScratchState.step, withUser]
  split
  · rfl
  · rename_i user found
    split
    · rw [waitForCompletion]
      split
      · exact state.sizes_set found rfl
      · rfl
    · rfl

/-- A request for a size is answered with a buffer of at least another one: it is no larger, or there are idle buffers
for the request, and all of them are as large. -/
def Supplies (state : ScratchState) (wanted size : Nat) : Prop :=
  size ≤ wanted ∨
    0 < wanted ∧ (∃ bo ∈ state.ctx.scratchBuffers, state.Idle bo ∧ wanted ≤ bo.allocSize) ∧
      ∀ bo ∈ state.ctx.scratchBuffers, state.Idle bo → wanted ≤ bo.allocSize → size ≤ bo.allocSize

instance (state : ScratchState) (bo : VPUBufferObject) : Decidable (state.Idle bo) :=
  inferInstanceAs (Decidable (_ = 1))

instance (state : ScratchState) (wanted size : Nat) : Decidable (state.Supplies wanted size) :=
  inferInstanceAs (Decidable (_ ∨ 0 < wanted ∧ (∃ bo ∈ state.ctx.scratchBuffers, _) ∧
    ∀ bo ∈ state.ctx.scratchBuffers, state.Idle bo → wanted ≤ bo.allocSize → size ≤ bo.allocSize))

theorem acquire_supplies_iff {wanted size : Nat} {bo : VPUBufferObject} (positive : 0 < wanted)
    (acquired : (state.acquire wanted).1 = some bo) : size ≤ bo.allocSize ↔ state.Supplies wanted size := by
  have outcome := (state.acquire_acquired wanted).1
  rw [acquired] at outcome
  cases outcome with
  | cached member idle enough smallest =>
    constructor
    · intro large
      exact .inr ⟨positive, ⟨bo, member, idle, enough⟩, fun other inside otherIdle wide =>
        Nat.le_trans large (smallest other inside otherIdle wide)⟩
    · rintro (small | ⟨-, -, all⟩)
      · exact Nat.le_trans small enough
      · exact all bo member idle enough
  | new none fresh exactly =>
    rw [exactly]
    constructor
    · exact .inl
    · rintro (small | ⟨-, ⟨other, inside, idle, wide⟩, -⟩)
      · exact small
      · exact absurd wide (Nat.not_le.mpr (none other inside idle))

end ScratchState

/-- A parser remembers the size that it was asked for last. -/
structure ScratchParser.Remembers (held : ScratchParser) : Prop where
  last : held.manager.sharedScratchSize = held.requested.getLast?.getD 0
  positive : ∀ size ∈ held.requested, 0 < size

namespace GraphScratch

variable {elf : ElfLibrary} {state : GraphScratch} {cmdBuffer : Nat} {user : ScratchUser}

/-- The sizes that the loaders had asked for last when the inferences of a command buffer were added. -/
def lastRequests (state : GraphScratch) (cmdBuffer : Nat) : List Nat :=
  (state.added cmdBuffer).map AddedInference.lastRequested

/-- A parser remembers the last request, and a command buffer the largest one of those. -/
structure SizesKept (state : GraphScratch) : Prop where
  remembers : ∀ parser, (state.parsers parser).Remembers
  maximal : ∀ cmdBuffer size, state.scratch.sizes[cmdBuffer]? = some size →
    size = highWater 0 (state.lastRequests cmdBuffer)
  unused : ∀ cmdBuffer, state.scratch.sizes.length ≤ cmdBuffer → state.added cmdBuffer = []

namespace SizesKept

theorem initial (ctx : VPUDeviceContext) : SizesKept (GraphScratch.initial ctx) where
  remembers := fun _ => ⟨rfl, nofun⟩
  maximal := nofun
  unused := fun _ _ => rfl

/-- Nothing is kept about the cache itself. -/
theorem sized (kept : SizesKept state) {scratch : ScratchState} (sizes : scratch.sizes = state.scratch.sizes)
    (inferences : List Nat) (bindings : List ScratchBinding) :
    SizesKept { state with scratch := scratch, inferences := inferences, bindings := bindings } where
  remembers := kept.remembers
  maximal := fun cmdBuffer size found => kept.maximal cmdBuffer size (sizes ▸ found)
  unused := fun cmdBuffer beyond => kept.unused cmdBuffer (sizes ▸ beyond)

/-- A parser that remembers its last request takes the place of another one. -/
theorem replaced (kept : SizesKept state) {scratch : ScratchState} (sizes : scratch.sizes = state.scratch.sizes)
    (parser : Nat) {held : ScratchParser} (remembers : held.Remembers) :
    SizesKept { state with scratch := scratch, parsers := Function.update state.parsers parser held } where
  remembers := by
    intro other
    change (Function.update state.parsers parser held other).Remembers
    by_cases same : other = parser
    · rw [same, Function.update_self]
      exact remembers
    · rw [Function.update_of_ne same]
      exact kept.remembers other
  maximal := fun cmdBuffer size found => kept.maximal cmdBuffer size (sizes ▸ found)
  unused := fun cmdBuffer beyond => kept.unused cmdBuffer (sizes ▸ beyond)

theorem allocate (kept : SizesKept state) (parser : Nat) (buffSpecs : BufferSpecs) :
    SizesKept (state.allocate elf parser buffSpecs) := by
  have before := kept.remembers parser
  rw [GraphScratch.allocate]
  generalize answered : DriverBufferManager.allocate elf _ buffSpecs = answer
  cases answer with
  | error => exact kept
  | ok allocated =>
    obtain ⟨buffer, manager⟩ := allocated
    have size := DriverBufferManager.allocate_sharedScratchSize answered
    simp only
    split
    · rename_i shared
      rw [if_pos shared] at size
      have asked : 0 < buffSpecs.size := by
        simp only [DriverBufferManager.sharesScratch, Bool.and_eq_true, decide_eq_true_eq] at shared
        exact Nat.pos_of_ne_zero shared.1.1
      refine kept.replaced (ScratchState.preload_sizes { state.scratch with ctx := manager.ctx } _) parser ⟨?_, ?_⟩
      · rw [List.getLast?_concat]
        exact size
      · intro other member
        rcases List.mem_append.mp member with earlier | last
        · exact before.positive other earlier
        · rw [List.mem_singleton.mp last]
          exact asked
    · rename_i unshared
      rw [if_neg unshared] at size
      have remembers : ScratchParser.Remembers ⟨manager, (state.parsers parser).requested⟩ :=
        ⟨size.trans before.last, before.positive⟩
      have sizes : ScratchState.sizes { state.scratch with ctx := manager.ctx } = state.scratch.sizes := rfl
      exact kept.replaced sizes parser remembers

theorem createCommandBuffer (kept : SizesKept state) (job : Nat) :
    SizesKept { state with scratch := state.scratch.closeCommands job [0] } where
  remembers := kept.remembers
  maximal := by
    intro cmdBuffer size found
    rw [ScratchState.closeCommands_sizes] at found
    by_cases before : cmdBuffer < state.scratch.sizes.length
    · rw [List.getElem?_append_left before] at found
      exact kept.maximal cmdBuffer size found
    · rw [List.getElem?_append_right (Nat.le_of_not_lt before)] at found
      -- the new command buffer has no inferences yet
      have zero : size = 0 := List.mem_singleton.mp (List.mem_of_getElem? found)
      have none : state.added cmdBuffer = [] := kept.unused cmdBuffer (Nat.le_of_not_lt before)
      simp only [lastRequests, none, zero]
      rfl
  unused := by
    intro cmdBuffer beyond
    rw [ScratchState.closeCommands_sizes, List.length_append] at beyond
    exact kept.unused cmdBuffer (Nat.le_trans (Nat.le_add_right _ _) beyond)

theorem addCommand (kept : SizesKept state) (found : state.scratch.users[cmdBuffer]? = some user) (parser : Nat) :
    SizesKept (state.addCommand cmdBuffer user parser) where
  remembers := kept.remembers
  maximal := by
    have before : user.inferenceScratchSize = highWater 0 (state.lastRequests cmdBuffer) := by
      apply kept.maximal
      rw [ScratchState.sizes, List.getElem?_map, found]
      rfl
    intro other size held
    simp only [GraphScratch.addCommand, ScratchState.sizes, List.map_set, List.getElem?_set] at held
    split at held
    · rename_i same
      subst same
      split at held
      · cases held
        simp only [lastRequests, GraphScratch.addCommand, Function.update_self, List.map_append, List.map_singleton,
          highWater_append]
        rw [before, (kept.remembers parser).last]
        rfl
      · cases held
    · rename_i different
      have same : (state.addCommand cmdBuffer user parser).lastRequests other = state.lastRequests other := by
        simp only [lastRequests, GraphScratch.addCommand, Function.update_of_ne (Ne.symm different)]
      rw [same]
      exact kept.maximal other size held
  unused := by
    intro other beyond
    have inside := (List.getElem?_eq_some_iff.mp found).1
    simp only [GraphScratch.addCommand, ScratchState.sizes, List.length_map, List.length_set] at beyond ⊢
    have different : other ≠ cmdBuffer := by
      rintro rfl
      exact Nat.not_lt.mpr beyond inside
    rw [Function.update_of_ne different]
    apply kept.unused other
    rw [ScratchState.sizes, List.length_map]
    exact beyond

theorem updateCommands (kept : SizesKept state) (found : state.scratch.users[cmdBuffer]? = some user) (reached : Nat) :
    SizesKept (state.updateCommands cmdBuffer reached user) := by
  have sizes := ScratchState.updateCommands_sizes found
  rw [GraphScratch.updateCommands]
  split
  · exact kept.sized sizes state.inferences state.bindings
  · exact kept.sized sizes state.inferences _

theorem withUser (kept : SizesKept state) {change : ScratchUser → GraphScratch}
    (changed : ∀ user, state.scratch.users[cmdBuffer]? = some user → SizesKept (change user)) :
    SizesKept (state.withUser cmdBuffer change) := by
  rw [GraphScratch.withUser]
  split
  · exact kept
  · rename_i user found
    split
    · exact changed user found
    · exact kept

theorem step (kept : SizesKept state) (call : GraphScratchCall) : SizesKept (state.step elf call) := by
  cases call with
  | allocate parser buffSpecs => exact kept.allocate parser buffSpecs
  | createInferenceExecuteCommand parser parsedInference allocated constructed =>
    simp only [GraphScratch.step, GraphScratch.createInferenceExecuteCommand]
    split
    · exact kept.sized rfl _ state.bindings
    · exact kept
  | createCommandBuffer job => exact kept.createCommandBuffer job
  | addCommand cmdBuffer inference =>
    simp only [GraphScratch.step]
    split
    · exact kept
    · exact kept.withUser fun user found => kept.addCommand found _
  | updateCommands cmdBuffer reached => exact kept.withUser fun user found => kept.updateCommands found reached
  | submit cmdBuffer accepted => exact kept.sized (state.scratch.submit_sizes cmdBuffer accepted) _ _
  | complete submission => exact kept.sized (state.scratch.complete_sizes submission) _ _
  | waitForCompletion cmdBuffer granted =>
    exact kept.sized (state.scratch.waitForCompletion_sizes cmdBuffer granted) _ _
  | destroyJob job => exact kept.sized (state.scratch.destroy_sizes job) _ _
  | destroyParser parser => exact kept.sized (state.scratch.prune_sizes _) _ _

end SizesKept

/-- The size of a command buffer, which is the largest last request of its inferences. -/
def scratchSize (state : GraphScratch) (cmdBuffer : Nat) : Nat := highWater 0 (state.lastRequests cmdBuffer)

/-- An update is made only when the size of the command buffer supplies all that the loaders of its inferences
have asked for. -/
def CoversRequests (state : GraphScratch) : GraphScratchCall → Prop
  | .updateCommands cmdBuffer reached =>
    ∀ inference ∈ (state.added cmdBuffer).take reached, ∀ size ∈ (state.parsers inference.parser).requested,
      state.scratch.Supplies (state.scratchSize cmdBuffer) size
  | _ => True

instance : (call : GraphScratchCall) → Decidable (state.CoversRequests call)
  | .updateCommands cmdBuffer reached =>
    inferInstanceAs (Decidable (∀ inference ∈ (state.added cmdBuffer).take reached,
      ∀ size ∈ (state.parsers inference.parser).requested,
        state.scratch.Supplies (state.scratchSize cmdBuffer) size))
  | .allocate _ _ | .createInferenceExecuteCommand _ _ _ _ | .createCommandBuffer _ | .addCommand _ _ | .submit _ _
  | .complete _ | .waitForCompletion _ _ | .destroyJob _ | .destroyParser _ => instDecidableTrue

/-- Loaders whose last request is their largest one are covered, whatever else the command buffer runs. -/
theorem coversRequests_of_last {reached : Nat}
    (last : ∀ inference ∈ (state.added cmdBuffer).take reached,
      ∀ size ∈ (state.parsers inference.parser).requested, size ≤ inference.lastRequested) :
    state.CoversRequests (.updateCommands cmdBuffer reached) := by
  intro inference member size asked
  have added : inference.lastRequested ∈ state.lastRequests cmdBuffer :=
    List.mem_map.mpr ⟨inference, List.mem_of_mem_take member, rfl⟩
  exact .inl (le_highWater.mpr (.inr ⟨_, added, last inference member size asked⟩))

/-- The entry of a command buffer changes as the command buffer does when an inference is added to it. -/
theorem addCommand_follows {cb : VPUCommandBuffer} (found : state.scratch.users[cmdBuffer]? = some user)
    (follows : ScratchState.Follows user cb) {cmd : VPUCommand} {inference : VPUInferenceExecute}
    {parser : Nat}
    (executes : cmd.isInference = some inference)
    (read : inference.sharedScratchSize = (state.parsers parser).manager.sharedScratchSize) {cmdOffset descOffset : Nat}
    (success : (cb.addStream cmd cmdOffset descOffset).success = true) :
    ∃ updated, (state.addCommand cmdBuffer user parser).scratch.users[cmdBuffer]? = some updated ∧
      ScratchState.Follows updated (cb.addStream cmd cmdOffset descOffset).cmdBuffer := by
  have inside := (List.getElem?_eq_some_iff.mp found).1
  refine ⟨_, List.getElem?_set_self inside, ?_⟩
  simp only [VPUCommandBuffer.addStream, executes] at success ⊢
  split at success
  · cases success
  · simp only [read, ← follows.size]
    exact ⟨rfl, follows.scratch⟩

/-- A loader that reports its shared scratch buffers by their sizes gets no inference whose buffers differ from the
remembered one. -/
theorem findsBuffers_shared {manager : DriverBufferManager} {allocated : List DeviceBuffer}
    (finds : manager.findsBuffers allocated = true) (null : manager.findBuffer 0 = none) {buffer : DeviceBuffer}
    (member : buffer ∈ allocated) (shared : buffer.cpuAddr = 0) (sized : buffer.size ≠ 0) :
    buffer.size = manager.sharedScratchSize := by
  have found := List.all_eq_true.mp finds buffer member
  simpa [shared, sized, null] using found

/-- After an update, the command buffer refers to what it has acquired. -/
theorem updateCommands_acquired (found : state.scratch.users[cmdBuffer]? = some user)
    (used : user.inferenceScratchSize ≠ 0) :
    (state.scratch.updateCommands cmdBuffer user).users[cmdBuffer]?.bind ScratchUser.inferenceScratchBuffer =
      (state.scratch.acquire user.inferenceScratchSize).1 := by
  have inside := (List.getElem?_eq_some_iff.mp found).1
  have users := (state.scratch.acquire_acquired user.inferenceScratchSize).2.1
  rw [ScratchState.updateCommands, if_neg used]
  generalize state.scratch.acquire user.inferenceScratchSize = answer at users ⊢
  obtain ⟨acquired, next⟩ := answer
  simp only at users
  cases acquired with
  | none =>
    simp only [users, List.getElem?_set_self inside]
    rfl
  | some bo =>
    simp only [users, List.getElem?_set_self inside]
    rfl

theorem SizesKept.user_size (kept : SizesKept state) (found : state.scratch.users[cmdBuffer]? = some user) :
    user.inferenceScratchSize = state.scratchSize cmdBuffer := by
  apply kept.maximal
  rw [ScratchState.sizes, List.getElem?_map, found]
  rfl

/-- A loader that has asked for shared scratch is remembered to have done so. -/
theorem SizesKept.shares (kept : SizesKept state) {parser : Nat} (asked : size ∈ (state.parsers parser).requested) :
    (state.parsers parser).manager.sharedScratchSize ≠ 0 := by
  obtain ⟨last, positive⟩ := kept.remembers parser
  have nonempty : (state.parsers parser).requested ≠ [] := List.ne_nil_of_mem asked
  rw [last, List.getLast?_eq_some_getLast nonempty]
  exact Nat.ne_of_gt (positive _ (List.getLast_mem nonempty))

/-- What a buffer is bound to is what the loaders of the inferences up to some point have asked for. -/
theorem SizesKept.bound_iff (kept : SizesKept state) {inferences : List AddedInference}
    {scratchBuffer : Option VPUBufferObject} :
    (∀ binding ∈ inferences.filterMap (state.bind scratchBuffer), binding.LargeEnough) ↔
      ∀ inference ∈ inferences, ∀ size ∈ (state.parsers inference.parser).requested,
        size ≤ (scratchBuffer.map VPUBufferObject.allocSize).getD 0 := by
  constructor
  · intro enough inference member size asked
    have bound : state.bind scratchBuffer inference =
        some ⟨(state.parsers inference.parser).requested, scratchBuffer⟩ := if_neg (kept.shares asked)
    exact enough _ (List.mem_filterMap.mpr ⟨inference, member, bound⟩) size asked
  · intro covered binding bound
    obtain ⟨inference, member, binds⟩ := List.mem_filterMap.mp bound
    rw [bind] at binds
    split at binds
    · cases binds
    · cases binds
      exact covered inference member

/-- The buffer that an update has acquired is large enough for the inferences that it is bound to if and only if
the update is covered. -/
theorem SizesKept.acquired_iff (kept : SizesKept state) (found : state.scratch.users[cmdBuffer]? = some user)
    (used : user.inferenceScratchSize ≠ 0) {bo : VPUBufferObject}
    (acquired : (state.scratch.acquire user.inferenceScratchSize).1 = some bo) (reached : Nat) :
    (∀ binding ∈ ((state.added cmdBuffer).take reached).filterMap (state.bind (some bo)), binding.LargeEnough) ↔
      state.CoversRequests (.updateCommands cmdBuffer reached) := by
  rw [kept.bound_iff, CoversRequests, ← kept.user_size found]
  have each : ∀ size, size ≤ bo.allocSize ↔ state.scratch.Supplies user.inferenceScratchSize size :=
    fun _ => ScratchState.acquire_supplies_iff (Nat.pos_of_ne_zero used) acquired
  constructor
  · intro large inference member size asked
    exact (each size).mp (large inference member size asked)
  · intro supplied inference member size asked
    exact (each size).mpr (supplied inference member size asked)

/-- An update that is covered binds buffers that are large enough. -/
theorem SizesKept.bound_large_enough (kept : SizesKept state) (found : state.scratch.users[cmdBuffer]? = some user)
    {reached : Nat} (covers : state.CoversRequests (.updateCommands cmdBuffer reached))
    {scratchBuffer : Option VPUBufferObject}
    (held : (state.scratch.updateCommands cmdBuffer user).users[cmdBuffer]?.bind ScratchUser.inferenceScratchBuffer =
      scratchBuffer) (success : ¬ (user.inferenceScratchSize ≠ 0 ∧ scratchBuffer = none)) :
    ∀ binding ∈ ((state.added cmdBuffer).take reached).filterMap (state.bind scratchBuffer),
      binding.LargeEnough := by
  by_cases unused : user.inferenceScratchSize = 0
  · rw [kept.bound_iff]
    intro inference member size asked
    have supplied := covers inference member size asked
    rw [← kept.user_size found, unused] at supplied
    rcases supplied with zero | ⟨positive, -⟩
    · exact Nat.le_trans zero (Nat.zero_le _)
    · cases positive
  · cases scratchBuffer with
    | none => exact absurd ⟨unused, rfl⟩ success
    | some bo =>
      have acquired := (updateCommands_acquired found unused).symm.trans held
      exact (kept.acquired_iff found unused acquired reached).mpr covers

/-- The sizes are kept, and all that has been bound is large enough. -/
structure ScratchCovered (state : GraphScratch) : Prop where
  kept : SizesKept state
  enough : ∀ binding ∈ state.bindings, binding.LargeEnough

/-- Only an update binds anything. -/
theorem bindings_step (state : GraphScratch) (call : GraphScratchCall)
    (other : ∀ cmdBuffer reached, call ≠ .updateCommands cmdBuffer reached) :
    (state.step elf call).bindings = state.bindings := by
  cases call with
  | updateCommands cmdBuffer reached => exact absurd rfl (other cmdBuffer reached)
  | allocate parser buffSpecs =>
    simp only [step, allocate]
    split
    · rfl
    · split <;> rfl
  | createInferenceExecuteCommand =>
    simp only [step, createInferenceExecuteCommand]
    split <;> rfl
  | addCommand =>
    simp only [step]
    split
    · rfl
    · simp only [withUser]
      split
      · rfl
      · split <;> rfl
  | createCommandBuffer | submit | complete | waitForCompletion | destroyJob | destroyParser => rfl

theorem ScratchCovered.step (covered : ScratchCovered state) {call : GraphScratchCall}
    (covers : state.CoversRequests call) : ScratchCovered (state.step elf call) where
  kept := covered.kept.step call
  enough := by
    by_cases other : ∀ cmdBuffer reached, call ≠ .updateCommands cmdBuffer reached
    · rw [bindings_step state call other]
      exact covered.enough
    · simp only [not_forall, not_not] at other
      obtain ⟨cmdBuffer, reached, rfl⟩ := other
      simp only [GraphScratch.step, withUser]
      split
      · exact covered.enough
      · rename_i user found
        split
        · simp only [updateCommands]
          split
          · exact covered.enough
          · rename_i success
            intro binding member
            rcases List.mem_append.mp member with before | bound
            · exact covered.enough binding before
            · exact covered.kept.bound_large_enough found covers rfl success binding bound
        · exact covered.enough

end GraphScratch

open GraphScratch

/-- In every run whose updates are covered, every inference is bound to a scratch buffer that is at least as large
as every shared scratch buffer that its loader has asked for. -/
theorem scratch_large_enough (elf : ElfLibrary) (ctx : VPUDeviceContext) (calls : List GraphScratchCall)
    (covers : Guarded (GraphScratch.step elf) CoversRequests (GraphScratch.initial ctx) calls) :
    ∀ binding ∈ (runFrom (GraphScratch.step elf) (GraphScratch.initial ctx) calls).bindings,
      binding.LargeEnough := by
  have initial : ScratchCovered (GraphScratch.initial ctx) := ⟨SizesKept.initial ctx, nofun⟩
  exact (@guarded_invariant _ _ (GraphScratch.step elf) CoversRequests _ ScratchCovered
    (fun _ _ covered allowed => covered.step allowed) initial calls covers).enough

/-- In no run does an update that is not covered bind large enough buffers, if it acquires one. -/
theorem uncovered_update_overflows (elf : ElfLibrary) (ctx : VPUDeviceContext) (calls : List GraphScratchCall)
    {state : GraphScratch} (reaches : runFrom (GraphScratch.step elf) (GraphScratch.initial ctx) calls = state)
    {cmdBuffer reached : Nat} {user : ScratchUser} (found : state.scratch.users[cmdBuffer]? = some user)
    (alive : user.alive = true) (used : user.inferenceScratchSize ≠ 0) {bo : VPUBufferObject}
    (acquired : (state.scratch.acquire user.inferenceScratchSize).1 = some bo)
    (uncovered : ¬ state.CoversRequests (.updateCommands cmdBuffer reached)) :
    ∃ binding ∈ (state.step elf (.updateCommands cmdBuffer reached)).bindings, ¬ binding.LargeEnough := by
  have kept : SizesKept state := reaches ▸ @run_invariant _ _ (GraphScratch.step elf) (GraphScratch.initial ctx)
    SizesKept (fun _ call kept => kept.step call) (SizesKept.initial ctx) calls
  have held := (updateCommands_acquired found used).trans acquired
  rw [← kept.acquired_iff found used acquired reached] at uncovered
  simp only [not_forall] at uncovered
  obtain ⟨binding, bound, small⟩ := uncovered
  refine ⟨binding, ?_, small⟩
  simp only [GraphScratch.step, withUser, found, alive, if_true, updateCommands, held]
  rw [if_neg fun failed => nomatch failed.2]
  exact List.mem_append_right _ bound

/-- A section for shared scratch. -/
def scratchSection (size : Nat) : BufferSpecs := ⟨size, 0x10000000, true⟩

/-- The flags of the library that the requests below are made with. -/
def scratchLibrary : ElfLibrary where
  SHF_ALLOC := 0x2
  SHF_EXECINSTR := 0x4
  VPU_SHF_PROC_DMA := 0x10000000
  VPU_SHF_PROC_SHAVE := 0x20000000
  staticBuffer := fun start specs => ⟨start, 0, specs.size⟩
  dynamicBuffer := fun specs => some ⟨2 ^ 45, 0, specs.size⟩

/-- What a loader asks for one inference: a buffer of its own, and two shared scratch buffers. -/
def inferenceRequests (first second : Nat) : List GraphScratchCall :=
  [.allocate 0 ⟨4096, 0x10000000, false⟩, .allocate 0 (scratchSection first), .allocate 0 (scratchSection second)]

/-- The command for an inference whose loader keeps the device buffers that it was given. -/
def inferenceCommand (base : Nat) : GraphScratchCall :=
  .createInferenceExecuteCommand 0 ⟨base, base, 4096⟩ [⟨base, base, 4096⟩, .empty, .empty] true

/-- An inference and its copy are submitted one after another. -/
def graphRun (first second : Nat) : List GraphScratchCall :=
  inferenceRequests first second ++ [inferenceCommand (2 ^ 20)] ++ inferenceRequests first second ++
    [inferenceCommand (3 * 2 ^ 20), .createCommandBuffer 0, .addCommand 0 0, .createCommandBuffer 1, .addCommand 1 1,
      .updateCommands 0 1, .submit 0 true, .updateCommands 1 1, .submit 1 true]

theorem equal_requests_covered :
    ⟨[65536, 65536, 65536, 65536], some ⟨3, 4, 0, 65536, 4 * 2 ^ 20⟩⟩ ∈
        (runFrom (GraphScratch.step scratchLibrary) (GraphScratch.initial (grantingContext []))
          (graphRun 65536 65536)).bindings ∧
      ScratchBinding.LargeEnough ⟨[65536, 65536, 65536, 65536], some ⟨3, 4, 0, 65536, 4 * 2 ^ 20⟩⟩ := by
  have bound : ⟨[65536, 65536, 65536, 65536], some ⟨3, 4, 0, 65536, 4 * 2 ^ 20⟩⟩ ∈
      (runFrom (GraphScratch.step scratchLibrary) (GraphScratch.initial (grantingContext []))
        (graphRun 65536 65536)).bindings := by
    decide +kernel
  exact ⟨bound, scratch_large_enough scratchLibrary (grantingContext []) (graphRun 65536 65536)
    (by decide +kernel) _ bound⟩

/-- The smaller request comes last: while the first inference runs with the buffer of the larger one, the copy is
bound to a buffer of the smaller one. -/
theorem shrinking_requests_overflow :
    ⟨[65536, 1024, 65536, 1024], some ⟨3, 4, 0, 1024, 4 * 2 ^ 20⟩⟩ ∈
        (runFrom (GraphScratch.step scratchLibrary) (GraphScratch.initial (grantingContext []))
          (graphRun 65536 1024)).bindings ∧
      ¬ ScratchBinding.LargeEnough ⟨[65536, 1024, 65536, 1024], some ⟨3, 4, 0, 1024, 4 * 2 ^ 20⟩⟩ := by
  decide +kernel

end NpuDriver
