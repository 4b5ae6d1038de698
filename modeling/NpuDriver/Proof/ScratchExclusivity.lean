import NpuDriver.Device.ScratchCache
import NpuDriver.Library.Runs
import NpuDriver.Proof.HandleEdits

/-! Scratch buffers of running submissions are not handed out again and not dropped. -/

namespace NpuDriver

open Library

variable {state : ScratchState} {size : Nat}

/-- Idle buffers of at least the requested size. -/
def Fitting (size : Nat) (idle : VPUBufferObject → Bool) (bo : VPUBufferObject) : Prop :=
  idle bo = true ∧ size ≤ bo.allocSize

/-- What a scan that started with a hit says about the buffers that it has seen. -/
structure Scanned (size : Nat) (idle : VPUBufferObject → Bool) (hit : Option VPUBufferObject)
    (cache : List VPUBufferObject) (result : Option VPUBufferObject) : Prop where
  missed : result = none → hit = none ∧ ∀ other ∈ cache, ¬ Fitting size idle other
  source : ∀ bo, result = some bo → hit = some bo ∨ bo ∈ cache ∧ Fitting size idle bo
  better : ∀ bo, result = some bo → ∀ best, hit = some best → bo.allocSize ≤ best.allocSize
  smallest : ∀ bo, result = some bo → ∀ other ∈ cache, Fitting size idle other →
    bo.allocSize ≤ other.allocSize

namespace Scanned

variable {idle : VPUBufferObject → Bool} {hit result : Option VPUBufferObject} {first : VPUBufferObject}
variable {rest : List VPUBufferObject}

/-- A buffer that does not fit is passed over. -/
theorem skip (scanned : Scanned size idle hit rest result) (unfit : ¬ Fitting size idle first) :
    Scanned size idle hit (first :: rest) result where
  missed := fun none => by
    obtain ⟨before, others⟩ := scanned.missed none
    refine ⟨before, fun other member => ?_⟩
    rcases List.mem_cons.mp member with rfl | later
    · exact unfit
    · exact others other later
  source := fun bo found => (scanned.source bo found).imp_right fun later =>
    ⟨List.mem_cons_of_mem _ later.1, later.2⟩
  better := scanned.better
  smallest := fun bo found other member fits => by
    rcases List.mem_cons.mp member with rfl | later
    · exact (unfit fits).elim
    · exact scanned.smallest bo found other later fits

/-- A fitting buffer that is larger than the hit is passed over. -/
theorem worse (scanned : Scanned size idle (some best) rest result) (larger : best.allocSize < first.allocSize) :
    Scanned size idle (some best) (first :: rest) result where
  missed := fun none => by cases (scanned.missed none).1
  source := fun bo found => (scanned.source bo found).imp_right fun later =>
    ⟨List.mem_cons_of_mem _ later.1, later.2⟩
  better := scanned.better
  smallest := fun bo found other member fits => by
    rcases List.mem_cons.mp member with rfl | later
    · exact Nat.le_trans (scanned.better bo found best rfl) (Nat.le_of_lt larger)
    · exact scanned.smallest bo found other later fits

/-- A fitting buffer that is not larger than the hit replaces it. -/
theorem take (scanned : Scanned size idle (some first) rest result) (fits : Fitting size idle first)
    (improves : ∀ best, hit = some best → first.allocSize ≤ best.allocSize) :
    Scanned size idle hit (first :: rest) result where
  missed := fun none => by cases (scanned.missed none).1
  source := fun bo found => by
    rcases scanned.source bo found with same | later
    · cases same
      exact .inr ⟨List.mem_cons_self, fits⟩
    · exact .inr ⟨List.mem_cons_of_mem _ later.1, later.2⟩
  better := fun bo found best held =>
    Nat.le_trans (scanned.better bo found first rfl) (improves best held)
  smallest := fun bo found other member fitting => by
    rcases List.mem_cons.mp member with rfl | later
    · exact scanned.better bo found _ rfl
    · exact scanned.smallest bo found other later fitting

/-- A buffer of exactly the requested size ends the scan. -/
theorem stop (fits : Fitting size idle first) (exactly : first.allocSize = size)
    (larger : ∀ best, hit = some best → size < best.allocSize) :
    Scanned size idle hit (first :: rest) (some first) where
  missed := nofun
  source := by
    rintro bo ⟨⟩
    exact .inr ⟨List.mem_cons_self, fits⟩
  better := by
    rintro bo ⟨⟩ best held
    rw [exactly]
    exact Nat.le_of_lt (larger best held)
  smallest := by
    rintro bo ⟨⟩ other - fitting
    rw [exactly]
    exact fitting.2

end Scanned

/-- The scan finds the smallest fitting buffer. -/
theorem scratchHit_scanned {idle : VPUBufferObject → Bool} (cache : List VPUBufferObject)
    (hit : Option VPUBufferObject) (larger : ∀ best, hit = some best → size < best.allocSize) :
    Scanned size idle hit cache (VPUDeviceContext.scratchHit size idle hit cache) := by
  induction cache generalizing hit with
  | nil =>
    simp only [VPUDeviceContext.scratchHit]
    refine ⟨fun none => ⟨none, nofun⟩, fun bo found => .inl found, ?_, fun _ _ => nofun⟩
    intro bo found best held
    rw [found] at held
    cases held
    exact Nat.le_refl _
  | cons first rest ih =>
    simp only [VPUDeviceContext.scratchHit]
    by_cases idleFirst : idle first = true
    · rw [if_neg (by simp [idleFirst])]
      by_cases exactly : first.allocSize = size
      · rw [if_pos exactly]
        exact Scanned.stop ⟨idleFirst, Nat.le_of_eq exactly.symm⟩ exactly larger
      · rw [if_neg exactly]
        by_cases wide : first.allocSize > size
        · rw [if_pos wide]
          have fits : Fitting size idle first := ⟨idleFirst, Nat.le_of_lt wide⟩
          have taken := ih (some first) (by rintro best ⟨⟩; exact wide)
          cases hit with
          | none => exact taken.take fits nofun
          | some best =>
            simp only
            by_cases smaller : best.allocSize < first.allocSize
            · rw [if_pos smaller]
              exact (ih (some best) larger).worse smaller
            · rw [if_neg smaller]
              refine taken.take fits ?_
              rintro kept ⟨⟩
              exact Nat.le_of_not_lt smaller
        · rw [if_neg wide]
          refine (ih hit larger).skip fun fits => ?_
          have enough := fits.2
          omega
    · rw [if_pos (by simp [idleFirst])]
      exact (ih hit larger).skip fun fits => idleFirst fits.1

namespace ScratchState

def Idle (state : ScratchState) (bo : VPUBufferObject) : Prop :=
  useCount state.ctx.scratchBuffers state.references bo = 1

/-- What `acquire` returns: the smallest idle buffer of the cache that is large enough or, where there is
none, a new buffer of the requested size; nothing when no bytes are asked for, or when there is no such
buffer and the kernel refuses a new one. -/
inductive Acquired (state : ScratchState) (size : Nat) : Option VPUBufferObject → VPUDeviceContext → Prop
  | nothing (empty : size = 0) (same : after.scratchBuffers = state.ctx.scratchBuffers)
      (created : state.ctx.created ≤ after.created) : Acquired state size none after
  | refused (none : ∀ other ∈ state.ctx.scratchBuffers, state.Idle other → other.allocSize < size)
      (denied : state.ctx.drvApi.createBuffer state.ctx.created size = .none)
      (same : after.scratchBuffers = state.ctx.scratchBuffers) (created : state.ctx.created ≤ after.created) :
      Acquired state size .none after
  | cached (member : bo ∈ state.ctx.scratchBuffers) (idle : state.Idle bo) (enough : size ≤ bo.allocSize)
      (smallest : ∀ other ∈ state.ctx.scratchBuffers, state.Idle other → size ≤ other.allocSize →
        bo.allocSize ≤ other.allocSize)
      (same : after.scratchBuffers = state.ctx.scratchBuffers) (created : state.ctx.created ≤ after.created) :
      Acquired state size (some bo) after
  | new (none : ∀ other ∈ state.ctx.scratchBuffers, state.Idle other → other.allocSize < size)
      (fresh : bo.id = state.ctx.created) (exactly : bo.allocSize = size)
      (added : after.scratchBuffers = state.ctx.scratchBuffers ++ [bo])
      (created : state.ctx.created < after.created) : Acquired state size (some bo) after

theorem acquire_acquired (state : ScratchState) (size : Nat) :
    Acquired state size (state.acquire size).1 (state.acquire size).2.ctx ∧
      (state.acquire size).2.users = state.users ∧ (state.acquire size).2.running = state.running := by
  refine ⟨?_, rfl, rfl⟩
  have idleIff : ∀ bo, (useCount state.ctx.scratchBuffers state.references bo == 1) = true ↔ state.Idle bo :=
    fun bo => beq_iff_eq
  have scanned := @scratchHit_scanned size
    (fun bo => useCount state.ctx.scratchBuffers state.references bo == 1) state.ctx.scratchBuffers none nofun
  simp only [acquire, VPUDeviceContext.scratchCacheAcquire, counted]
  by_cases empty : size = 0
  · rw [if_pos empty]
    exact .nothing empty rfl (Nat.le_refl _)
  · rw [if_neg empty]
    generalize VPUDeviceContext.scratchHit size
      (fun bo => useCount state.ctx.scratchBuffers state.references bo == 1) none state.ctx.scratchBuffers =
        result at scanned ⊢
    cases result with
    | some hit =>
      rcases scanned.source hit rfl with impossible | ⟨member, idle, enough⟩
      · cases impossible
      · refine .cached member ((idleIff hit).mp idle) enough ?_ rfl (Nat.le_refl _)
        intro other inside otherIdle wide
        exact scanned.smallest hit rfl other inside ⟨(idleIff other).mpr otherIdle, wide⟩
    | none =>
      obtain ⟨-, unfit⟩ := scanned.missed rfl
      have small : ∀ other ∈ state.ctx.scratchBuffers, state.Idle other → other.allocSize < size := by
        intro other inside idle
        by_contra wide
        exact unfit other inside ⟨(idleIff other).mpr idle, Nat.le_of_not_lt wide⟩
      simp only
      generalize answered : VPUDeviceContext.createUntrackedBufferObject _ size false = answer
      obtain ⟨created, ctx⟩ := answer
      cases created with
      | none =>
        obtain ⟨count, later, frame⟩ := VPUDeviceContext.createUntrackedBufferObject_frame
          { state.ctx with
            useCount := fun _ => useCount state.ctx.scratchBuffers state.references
            scans := state.ctx.scans + 1 } size false
        have denied := VPUDeviceContext.createUntrackedBufferObject_unmapped_none empty (congrArg Prod.fst answered)
        rw [answered] at frame
        rw [frame]
        exact .refused small denied rfl later
      | some bo =>
        obtain ⟨fresh, exactly, -, rfl⟩ := VPUDeviceContext.createUntrackedBufferObject_some answered
        exact .new small fresh exactly rfl (Nat.lt_succ_self _)

/-- The fields of a command buffer that its entry in the state stands for. -/
structure Follows (user : ScratchUser) (cb : VPUCommandBuffer) : Prop where
  size : user.inferenceScratchSize = cb.inferenceScratchSize
  scratch : user.inferenceScratchBuffer = cb.inferenceScratchBuffer

/-- The entry of a command buffer changes as the command buffer does when it is updated in a context
that counts references as the state does. -/
theorem updateCommands_follows {index : Nat} {user : ScratchUser} {cb : VPUCommandBuffer}
    (found : state.users[index]? = some user) (follows : Follows user cb) (cmds : List VPUCommand) :
    ∃ updated, (state.updateCommands index user).users[index]? = some updated ∧
      Follows updated (cb.updateCommands cmds state.counted).2.1 := by
  obtain ⟨inside, -⟩ := List.getElem?_eq_some_iff.mp found
  have placed : ∀ changed, (state.users.set index changed)[index]? = some changed := fun changed => by
    rw [List.getElem?_set_self inside]
  rw [ScratchState.updateCommands, VPUCommandBuffer.updateCommands, acquire, follows.size]
  by_cases unused : cb.inferenceScratchSize = 0
  · rw [if_pos unused, if_pos unused]
    obtain ⟨success, updated, next, loop, -⟩ :=
      VPUCommandBuffer.updateEach_plan cb.inferenceScratchBuffer cb cmds state.counted
    rw [loop]
    exact ⟨user, found, follows.size, follows.scratch⟩
  · rw [if_neg unused, if_neg unused]
    cases state.counted.scratchCacheAcquire cb.inferenceScratchSize with
    | mk answer ctx =>
      cases answer with
      | none => exact ⟨_, placed _, rfl, rfl⟩
      | some bo =>
        obtain ⟨success, updated, next, loop, -⟩ := VPUCommandBuffer.updateEach_plan (some bo)
          { cb with inferenceScratchBuffer := some bo } cmds ctx
        simp only [loop]
        exact ⟨_, placed _, rfl, rfl⟩

/-- A successful wait releases the reference in the entry and in the command buffer. -/
theorem release_follows {user : ScratchUser} {cb : VPUCommandBuffer} (follows : Follows user cb) :
    Follows { user with inferenceScratchBuffer := none } cb.release := by
  rw [VPUCommandBuffer.release]
  split <;> exact ⟨follows.size, rfl⟩

/-- No running submission shares its scratch buffer with another one or with a later command buffer, and
none loses it. -/
structure ScratchSafe (state : ScratchState) : Prop where
  exclusive : state.running.Pairwise fun first second => first.2 ≠ second.2
  acquired : ∀ size bo, (state.acquire size).1 = some bo → ∀ submission ∈ state.running, submission.2 ≠ bo
  pruned : ∀ size, ∀ submission ∈ state.running, submission.2 ∈ (state.prune size).ctx.scratchBuffers
  smallest : ∀ size, Acquired state size (state.acquire size).1 (state.acquire size).2.ctx

/-- A command buffer is updated, submitted and destroyed only when the device has completed its earlier
submissions, and it is submitted with the buffer that it has acquired. -/
def Undisturbed (state : ScratchState) : ScratchCall → Prop
  | .updateCommands user => user ∉ state.running.map Prod.fst
  | .submit user _ => user ∉ state.running.map Prod.fst ∧
      ∀ held ∈ state.users[user]?, held.patched = held.inferenceScratchBuffer
  | .stripInOrder job | .destroy job =>
    ∀ submission ∈ state.running, ∀ held ∈ state.users[submission.1]?, held.job ≠ job
  | _ => True

instance : (call : ScratchCall) → Decidable (state.Undisturbed call)
  | .updateCommands user => inferInstanceAs (Decidable (user ∉ _))
  | .submit user _ => inferInstanceAs (Decidable (_ ∧ ∀ held ∈ state.users[user]?, _))
  | .stripInOrder _ | .destroy _ =>
    inferInstanceAs (Decidable (∀ submission ∈ state.running, ∀ held ∈ state.users[submission.1]?, _))
  | .acquire _ | .preload _ | .prune _ | .closeCommands _ _ | .complete _ | .waitForCompletion _ _ =>
    instDecidableTrue

structure ScratchInvariant (state : ScratchState) : Prop where
  cached : ∀ bo, some bo ∈ state.references → bo ∈ state.ctx.scratchBuffers
  unshared : Unshared state.references
  older : ∀ bo ∈ state.ctx.scratchBuffers, bo.id < state.ctx.created
  held : ∀ submission ∈ state.running, state.references[submission.1]? = some (some submission.2)
  once : (state.running.map Prod.fst).Nodup

theorem references_set (state : ScratchState) (index : Nat) (user : ScratchUser) :
    (state.users.set index user).map ScratchUser.inferenceScratchBuffer =
      state.references.set index user.inferenceScratchBuffer := List.map_set

namespace ScratchInvariant

theorem initial (ctx : VPUDeviceContext) : ScratchInvariant (ScratchState.initial ctx) where
  cached := nofun
  unshared := nofun
  older := nofun
  held := nofun
  once := List.nodup_nil

theorem referenced (invariant : ScratchInvariant state) (member : submission ∈ state.running) :
    some submission.2 ∈ state.references := List.mem_of_getElem? (invariant.held submission member)

/-- The cache only grows by an acquisition. -/
theorem acquire (invariant : ScratchInvariant state) (size : Nat) :
    ScratchInvariant (state.acquire size).2 := by
  obtain ⟨outcome, users, running⟩ := state.acquire_acquired size
  have references : (state.acquire size).2.references = state.references := rfl
  generalize (state.acquire size).1 = acquired at outcome
  constructor
  · intro bo referenced
    have before := invariant.cached bo (references ▸ referenced)
    cases outcome with
    | nothing _ same | refused _ _ same | cached _ _ _ _ same => exact same.symm ▸ before
    | new _ _ _ added => exact added.symm ▸ List.mem_append_left _ before
  · exact invariant.unshared
  · intro bo member
    cases outcome with
    | nothing _ same created | refused _ _ same created | cached _ _ _ _ same created =>
      exact Nat.lt_of_lt_of_le (invariant.older bo (same ▸ member)) created
    | new _ fresh _ added created =>
      rcases List.mem_append.mp (added ▸ member) with before | last
      · exact Nat.lt_trans (invariant.older bo before) created
      · rw [List.mem_singleton.mp last, fresh]
        exact created
  · exact invariant.held
  · exact invariant.once

/-- Only idle buffers are pruned, and no command buffer refers to them. -/
theorem prune_cached (invariant : ScratchInvariant state) (size : Nat) (bo : VPUBufferObject)
    (referenced : some bo ∈ state.references) : bo ∈ (state.prune size).ctx.scratchBuffers := by
  have member := invariant.cached bo referenced
  rw [ScratchState.prune]
  split
  · exact member
  · refine List.mem_filter.mpr ⟨member, ?_⟩
    rw [decide_eq_true_eq]
    exact fun idle => not_idle_of_referenced member referenced idle.1

theorem prune (invariant : ScratchInvariant state) (size : Nat) : ScratchInvariant (state.prune size) := by
  have kept := invariant.prune_cached size
  rw [ScratchState.prune] at kept ⊢
  split
  · exact invariant
  · rename_i positive
    rw [if_neg positive] at kept
    exact {
      cached := kept
      unshared := invariant.unshared
      older := fun bo member => invariant.older bo (List.mem_filter.mp member).1
      held := invariant.held
      once := invariant.once }

/-- A command buffer that is not running takes another reference. -/
theorem refer (invariant : ScratchInvariant state) {index : Nat} {user : ScratchUser}
    (done : index ∉ state.running.map Prod.fst)
    (fresh : ∀ bo, user.inferenceScratchBuffer = some bo →
      bo ∈ state.ctx.scratchBuffers ∧ some bo ∉ state.references) :
    ScratchInvariant { state with users := state.users.set index user } := by
  have references := references_set state index user
  constructor
  · intro bo referenced
    rw [ScratchState.references, references] at referenced
    rcases List.mem_or_eq_of_mem_set referenced with before | moved
    · exact invariant.cached bo before
    · exact (fresh bo moved.symm).1
  · rw [ScratchState.references, references]
    exact invariant.unshared.set index fun bo moved => (fresh bo moved).2
  · exact invariant.older
  · intro submission member
    rw [ScratchState.references, references, List.getElem?_set_ne]
    · exact invariant.held submission member
    · rintro rfl
      exact done (List.mem_map_of_mem member)
  · exact invariant.once

theorem updateCommands (invariant : ScratchInvariant state) {index : Nat} (user : ScratchUser)
    (done : index ∉ state.running.map Prod.fst) : ScratchInvariant (state.updateCommands index user) := by
  rw [ScratchState.updateCommands]
  split
  · exact invariant
  · obtain ⟨outcome, -, running⟩ := state.acquire_acquired user.inferenceScratchSize
    have after := invariant.acquire user.inferenceScratchSize
    have references : (state.acquire user.inferenceScratchSize).2.references = state.references := rfl
    generalize state.acquire user.inferenceScratchSize = answer at outcome running after references
    obtain ⟨acquired, next⟩ := answer
    have still : index ∉ next.running.map Prod.fst := running.symm ▸ done
    cases acquired with
    | none => exact after.refer still nofun
    | some bo =>
      refine after.refer still ?_
      rintro _ ⟨⟩
      rw [references]
      cases outcome with
      | cached member idle _ _ same => exact ⟨same.symm ▸ member, unreferenced_of_idle member idle⟩
      | new _ fresh _ added _ =>
        refine ⟨added.symm ▸ List.mem_append_right _ (List.mem_singleton_self bo), fun referenced => ?_⟩
        have old := invariant.older bo (invariant.cached bo referenced)
        rw [fresh] at old
        exact Nat.lt_irrefl _ old

theorem submit (invariant : ScratchInvariant state) {index : Nat} {user : ScratchUser} (accepted : Bool)
    (found : state.users[index]? = some user) (done : index ∉ state.running.map Prod.fst)
    (fresh : user.patched = user.inferenceScratchBuffer) :
    ScratchInvariant (state.submit index user accepted) := by
  rw [ScratchState.submit]
  split
  · cases patched : user.patched with
    | none =>
      rw [Option.map_none, Option.toList_none, List.append_nil]
      exact invariant
    | some bo =>
      constructor
      · exact invariant.cached
      · exact invariant.unshared
      · exact invariant.older
      · intro submission member
        rcases List.mem_append.mp member with before | last
        · exact invariant.held submission before
        · rw [Option.map_some, Option.toList_some, List.mem_singleton] at last
          rw [last, ScratchState.references, List.getElem?_map, found, Option.map_some, ← fresh, patched]
      · rw [List.map_append, Option.map_some, Option.toList_some, List.map_singleton, List.nodup_append]
        refine ⟨invariant.once, List.nodup_cons.mpr ⟨List.not_mem_nil, List.nodup_nil⟩, ?_⟩
        rintro other before _ last rfl
        rw [List.mem_singleton] at last
        rw [last] at before
        exact done before
  · exact invariant

theorem destroy (invariant : ScratchInvariant state) {job : Nat}
    (done : ∀ submission ∈ state.running, ∀ held ∈ state.users[submission.1]?, held.job ≠ job) :
    ScratchInvariant (state.destroy job) := by
  have fewer : ∀ (index : Nat) (bo : VPUBufferObject),
      (state.destroy job).references[index]? = some (some bo) → state.references[index]? = some (some bo) := by
    intro index bo found
    simp only [ScratchState.references, ScratchState.destroy, List.map_map, List.getElem?_map] at found ⊢
    cases user : state.users[index]? with
    | none =>
      rw [user] at found
      cases found
    | some held =>
      rw [user, Option.map_some, Function.comp_apply] at found
      split at found
      · cases found
      · exact found
  constructor
  · intro bo referenced
    obtain ⟨index, found⟩ := List.getElem?_of_mem referenced
    exact invariant.cached bo (List.mem_of_getElem? (fewer index bo found))
  · exact invariant.unshared.drop fewer
  · exact invariant.older
  · intro submission member
    have before := invariant.held submission member
    simp only [ScratchState.references, ScratchState.destroy, List.map_map, List.getElem?_map] at before ⊢
    cases user : state.users[submission.1]? with
    | none =>
      rw [user] at before
      cases before
    | some held =>
      have other := done submission member held user
      rw [user] at before
      rw [Option.map_some, Function.comp_apply, if_neg other]
      exact before
  · exact invariant.once

theorem closeCommands (invariant : ScratchInvariant state) (job : Nat) (sizes : List Nat) :
    ScratchInvariant (state.closeCommands job sizes) := by
  have references : (state.closeCommands job sizes).references =
      state.references ++ sizes.map fun _ => none := by
    simp [ScratchState.closeCommands, ScratchState.references, ScratchUser.new, Function.comp_def]
  have fewer : ∀ (index : Nat) (bo : VPUBufferObject),
      (state.closeCommands job sizes).references[index]? = some (some bo) →
        state.references[index]? = some (some bo) := by
    intro index bo found
    rw [references] at found
    by_cases inside : index < state.references.length
    · rwa [List.getElem?_append_left inside] at found
    · rw [List.getElem?_append_right (Nat.le_of_not_lt inside), List.getElem?_map] at found
      obtain ⟨size, -, impossible⟩ := Option.map_eq_some_iff.mp found
      cases impossible
  constructor
  · intro bo referenced
    obtain ⟨index, found⟩ := List.getElem?_of_mem referenced
    exact invariant.cached bo (List.mem_of_getElem? (fewer index bo found))
  · exact invariant.unshared.drop fewer
  · exact invariant.older
  · intro submission member
    have before := invariant.held submission member
    obtain ⟨inside, -⟩ := List.getElem?_eq_some_iff.mp before
    rw [references, List.getElem?_append_left inside]
    exact before
  · exact invariant.once

theorem withUser (invariant : ScratchInvariant state) (index : Nat) {change : ScratchUser → ScratchState}
    (changed : ∀ user, state.users[index]? = some user → ScratchInvariant (change user)) :
    ScratchInvariant (state.withUser index change) := by
  rw [ScratchState.withUser]
  split
  · exact invariant
  · rename_i user found
    split
    · exact changed user found
    · exact invariant

theorem step (call : ScratchCall) (invariant : ScratchInvariant state) (undisturbed : state.Undisturbed call) :
    ScratchInvariant (state.step call) := by
  cases call with
  | acquire size => exact invariant.acquire size
  | preload size =>
    simp only [ScratchState.step, preload]
    split
    · exact invariant
    · exact (invariant.prune (size - 1)).acquire size
  | prune size => exact invariant.prune size
  | closeCommands job sizes => exact invariant.closeCommands job sizes
  | updateCommands index => exact invariant.withUser index fun user _ => invariant.updateCommands user undisturbed
  | submit index accepted =>
    exact invariant.withUser index fun user found =>
      invariant.submit accepted found undisturbed.1 (undisturbed.2 user found)
  | complete submission =>
    exact {
      cached := invariant.cached
      unshared := invariant.unshared
      older := invariant.older
      held := fun other member => invariant.held other (List.mem_of_mem_eraseIdx member)
      once := invariant.once.sublist ((List.eraseIdx_sublist _ _).map _) }
  | waitForCompletion index granted =>
    refine invariant.withUser index fun user _ => ?_
    rw [ScratchState.waitForCompletion]
    split
    · rename_i answered
      exact invariant.refer answered.2 nofun
    · exact invariant
  | stripInOrder job => exact (invariant.destroy undisturbed).closeCommands job _
  | destroy job => exact invariant.destroy undisturbed

theorem safe (invariant : ScratchInvariant state) : ScratchSafe state where
  exclusive := by
    have different := List.pairwise_map.mp invariant.once
    refine List.Pairwise.imp_of_mem ?_ different
    intro first second left right users same
    have second' := invariant.held second right
    rw [← same] at second'
    exact users (invariant.unshared first.1 second.1 first.2 (invariant.held first left) second')
  acquired := by
    intro size bo acquired submission member same
    obtain ⟨outcome, -, -⟩ := state.acquire_acquired size
    have referenced := invariant.referenced member
    rw [same] at referenced
    rw [acquired] at outcome
    cases outcome with
    | cached inside idle => exact unreferenced_of_idle inside idle referenced
    | new _ fresh =>
      have old := invariant.older bo (invariant.cached bo referenced)
      rw [fresh] at old
      exact Nat.lt_irrefl _ old
  pruned := fun size submission member => invariant.prune_cached size submission.2 (invariant.referenced member)
  smallest := fun size => (state.acquire_acquired size).1

end ScratchInvariant

end ScratchState

open ScratchState

/-- Two jobs with scratch, the second of which is submitted while the first is running; the first is
submitted again after its completion. -/
def twoScratchJobs : List ScratchCall :=
  [.preload 4096, .closeCommands 0 [4096], .closeCommands 1 [1024, 0], .updateCommands 0, .submit 0 true,
    .updateCommands 1, .updateCommands 2, .submit 1 true, .submit 2 true, .complete 0, .waitForCompletion 0 true,
    .updateCommands 0, .submit 0 true, .prune 8192]

/-- A job is submitted again while it runs, and then another one. -/
def scratchResubmission : List ScratchCall :=
  [.closeCommands 0 [4096], .closeCommands 1 [4096], .updateCommands 0, .submit 0 true, .updateCommands 0,
    .submit 0 true]

end NpuDriver
