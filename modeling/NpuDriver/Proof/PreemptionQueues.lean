import NpuDriver.LevelZero.PreemptionCache
import NpuDriver.Library.Runs
import NpuDriver.Proof.HandleEdits

/-! Preemption buffers follow their queues, and the cache of them follows the number of queues. -/

namespace NpuDriver

open Library

namespace PreemptionState

variable {state : PreemptionState}

def Live (state : PreemptionState) (index : Nat) : Prop := ∃ queue ∈ state.queues[index]?, queue.live = true

/-- The queue is live and has a command buffer that uses the preemption buffer and has not been waited for. -/
def Unwaited (state : PreemptionState) (index : Nat) (bo : VPUBufferObject) : Prop :=
  state.Live index ∧ ∃ user ∈ state.users, (index, some bo) ∈ user.submitted

/-- What a call may take out of the cache. -/
structure Pruned (before after : PreemptionState) : Prop where
  unheld : ∀ bo ∈ before.ctx.preemptionBuffers, bo ∉ after.ctx.preemptionBuffers → some bo ∉ after.references
  enough : min before.ctx.preemptionBuffers.length after.liveQueues ≤ after.ctx.preemptionBuffers.length

/-- The counter is the number of live queues, and no two of them run with the same buffer. -/
structure FollowsQueues (state : PreemptionState) : Prop where
  counter : state.numQueues = state.liveQueues
  exclusive : ∀ first second bo, state.Unwaited first bo → state.Unwaited second bo → first = second

/-- The count of references finds nothing idle. -/
def NoneIdle (state : PreemptionState) : Prop := ∀ bo ∈ state.ctx.preemptionBuffers, state.uses bo ≠ 1

instance : Decidable state.NoneIdle := inferInstanceAs (Decidable (∀ bo ∈ _, _))

/-- A command buffer is submitted to a queue with that queue's buffer only; memory is released when no
queue is left; a queue is destroyed when the cache keeps more buffers than queues are left, or has none
to prune. -/
def Orderly (state : PreemptionState) : PreemptionCall → Prop
  | .submit queue user _ => ∀ held ∈ state.users[user]?, ∀ bo ∈ held.preemptionBuffer,
      some bo ∈ state.queueReferences[queue]?
  | .destroyQueue queue => state.numQueues - 1 < state.ctx.preemptionBuffers.length ∨
      (state.setQueue queue ⟨none, false⟩).NoneIdle
  | .releaseMemory => state.numQueues = 0
  | _ => True

instance : (call : PreemptionCall) → Decidable (state.Orderly call)
  | .submit queue user _ => inferInstanceAs (Decidable (∀ held ∈ state.users[user]?, ∀ bo ∈ held.preemptionBuffer,
      some bo ∈ state.queueReferences[queue]?))
  | .destroyQueue queue => inferInstanceAs (Decidable (_ ∨ (state.setQueue queue ⟨none, false⟩).NoneIdle))
  | .releaseMemory => inferInstanceAs (Decidable (state.numQueues = 0))
  | .createQueue | .closeCommands _ _ | .acquirePreemptionBuffer _ | .addPreemptionBuffer _ _
  | .waitForCompletion _ _ | .putBackPreemptionBuffer _ | .destroyCommands _ => instDecidableTrue

/-- What `acquire` returns: nothing, an idle buffer of the cache, or a new one. -/
inductive Acquired (state : PreemptionState) : Option VPUBufferObject → VPUDeviceContext → Prop
  | failed (same : after.preemptionBuffers = state.ctx.preemptionBuffers)
      (created : state.ctx.created ≤ after.created) : Acquired state none after
  | cached (member : bo ∈ state.ctx.preemptionBuffers) (idle : state.uses bo = 1)
      (same : after.preemptionBuffers = state.ctx.preemptionBuffers)
      (created : state.ctx.created ≤ after.created) : Acquired state (some bo) after
  | new (fresh : bo.id = state.ctx.created) (added : after.preemptionBuffers = state.ctx.preemptionBuffers ++ [bo])
      (created : state.ctx.created < after.created) : Acquired state (some bo) after

theorem preemptionCacheAcquire_acquired (state : PreemptionState) :
    Acquired state state.counted.preemptionCacheAcquire.1 state.counted.preemptionCacheAcquire.2 := by
  rw [VPUDeviceContext.preemptionCacheAcquire]
  by_cases unsupported : state.counted.hwInfo.fwPreemptBufSize = 0
  · rw [if_pos unsupported]
    exact .failed rfl (Nat.le_refl _)
  · rw [if_neg unsupported]
    cases hit : state.counted.preemptionBuffers.find? fun bo =>
        state.counted.useCount state.counted.scans bo == 1 with
    | some bo =>
      have idle := List.find?_some hit
      exact .cached (List.mem_of_find?_eq_some hit) (beq_iff_eq.mp idle) rfl (Nat.le_refl _)
    | none =>
      simp only
      generalize answered : VPUDeviceContext.createUntrackedBufferObject _ _ false = answer
      obtain ⟨created, ctx⟩ := answer
      cases created with
      | none =>
        obtain ⟨count, later, frame⟩ := VPUDeviceContext.createUntrackedBufferObject_frame
          { state.counted with scans := state.counted.scans + 1 } state.counted.hwInfo.fwPreemptBufSize false
        rw [answered] at frame
        rw [frame]
        exact .failed rfl later
      | some bo =>
        obtain ⟨fresh, -, -, rfl⟩ := VPUDeviceContext.createUntrackedBufferObject_some answered
        exact .new fresh rfl (Nat.lt_succ_self _)

/-- A command buffer holds the preemption buffer of its entry in the state, and has a position for it. -/
structure Follows (user : PreemptionUser) (cb : VPUCommandBuffer) : Prop where
  buffer : user.preemptionBuffer = cb.preemptionBuffer
  index : cb.preemptionBufferIndex.isSome = cb.preemptionBuffer.isSome

theorem addPreemptionBuffer_follows {user : PreemptionUser} {cb : VPUCommandBuffer} (follows : Follows user cb)
    (bo : VPUBufferObject) : Follows (user.addPreemptionBuffer bo) (cb.addPreemptionBuffer (some bo)) := by
  obtain ⟨buffer, index⟩ := follows
  unfold PreemptionUser.addPreemptionBuffer VPUCommandBuffer.addPreemptionBuffer
  rw [buffer]
  cases held : cb.preemptionBuffer with
  | none => exact ⟨rfl, rfl⟩
  | some other => exact ⟨buffer, index⟩

theorem release_follows {user : PreemptionUser} {cb : VPUCommandBuffer} (follows : Follows user cb) :
    Follows user.released cb.release := by
  have index := follows.index
  unfold VPUCommandBuffer.release
  cases held : cb.preemptionBuffer with
  | none =>
    rw [held] at index
    exact ⟨rfl, index⟩
  | some bo =>
    rw [held] at index
    obtain ⟨position, stored⟩ := Option.isSome_iff_exists.mp index
    rw [stored]
    exact ⟨rfl, rfl⟩

/-- References are to cached buffers, those of different queues to different ones, and a submission that
has not been waited for is held by its command buffer and by its queue. -/
structure References (state : PreemptionState) : Prop where
  cached : ∀ bo, some bo ∈ state.references → bo ∈ state.ctx.preemptionBuffers
  unshared : Unshared state.queueReferences
  older : ∀ bo ∈ state.ctx.preemptionBuffers, bo.id < state.ctx.created
  submitted : ∀ user ∈ state.users, ∀ queue bo, (queue, some bo) ∈ user.submitted →
    queue < state.queues.length ∧ user.preemptionBuffer = some bo ∧
      (state.Live queue → state.queueReferences[queue]? = some (some bo))

theorem mem_references {bo : VPUBufferObject} :
    some bo ∈ state.references ↔ some bo ∈ state.queueReferences ∨ some bo ∈ state.userReferences :=
  List.mem_append

theorem setQueue_queueReferences (state : PreemptionState) (index : Nat) (queue : PreemptionQueue) :
    (state.setQueue index queue).queueReferences = state.queueReferences.set index queue.preemptionBuffer :=
  List.map_set

theorem setQueue_live {index other : Nat} {queue : PreemptionQueue} (different : other ≠ index) :
    (state.setQueue index queue).Live other ↔ state.Live other := by
  rw [Live, Live, setQueue, List.getElem?_set_ne (Ne.symm different)]

namespace References

theorem initial (ctx : VPUDeviceContext) : References (PreemptionState.initial ctx) where
  cached := nofun
  unshared := nofun
  older := nofun
  submitted := nofun

/-- The users change their references and submissions. -/
theorem setUsers (references : References state) {users : List PreemptionUser}
    (cached : ∀ user ∈ users, ∀ bo, user.preemptionBuffer = some bo → bo ∈ state.ctx.preemptionBuffers)
    (submitted : ∀ user ∈ users, ∀ queue bo, (queue, some bo) ∈ user.submitted →
      queue < state.queues.length ∧ user.preemptionBuffer = some bo ∧
        (state.Live queue → state.queueReferences[queue]? = some (some bo))) :
    References { state with users := users } where
  cached := by
    intro bo referenced
    rcases mem_references.mp referenced with queue | user
    · exact references.cached bo (mem_references.mpr (.inl queue))
    · obtain ⟨user, member, held⟩ := List.mem_map.mp user
      exact cached user member bo held
  unshared := references.unshared
  older := references.older
  submitted := submitted

theorem user_cached (references : References state) {user : PreemptionUser} (member : user ∈ state.users)
    {bo : VPUBufferObject} (held : user.preemptionBuffer = some bo) : bo ∈ state.ctx.preemptionBuffers :=
  references.cached bo (mem_references.mpr (.inr (List.mem_map.mpr ⟨user, member, held⟩)))

theorem queue_cached (references : References state) {queue : PreemptionQueue} (member : queue ∈ state.queues)
    {bo : VPUBufferObject} (held : queue.preemptionBuffer = some bo) : bo ∈ state.ctx.preemptionBuffers :=
  references.cached bo (mem_references.mpr (.inl (List.mem_map.mpr ⟨queue, member, held⟩)))

/-- A queue is added without a buffer. -/
theorem createQueue (references : References state) : References state.createQueue := by
  have queues : state.createQueue.queueReferences = state.queueReferences ++ [none] := List.map_append
  have length : state.queueReferences.length = state.queues.length := List.length_map _
  constructor
  · intro bo referenced
    rcases mem_references.mp referenced with queue | user
    · rw [queues] at queue
      rcases List.mem_append.mp queue with before | last
      · exact references.cached bo (mem_references.mpr (.inl before))
      · cases List.mem_singleton.mp last
    · exact references.cached bo (mem_references.mpr (.inr user))
  · refine references.unshared.drop fun index bo found => ?_
    rw [queues] at found
    by_cases inside : index < state.queueReferences.length
    · rwa [List.getElem?_append_left inside] at found
    · rw [List.getElem?_append_right (Nat.le_of_not_lt inside)] at found
      cases List.mem_singleton.mp (List.mem_of_getElem? found)
  · exact references.older
  · intro user member queue bo uses
    obtain ⟨inside, held, follows⟩ := references.submitted user member queue bo uses
    refine ⟨?_, held, fun live => ?_⟩
    · rw [PreemptionState.createQueue, List.length_append]
      exact Nat.lt_add_right 1 inside
    · rw [queues, List.getElem?_append_left (length.symm ▸ inside)]
      refine follows ?_
      rw [Live, PreemptionState.createQueue, List.getElem?_append_left inside] at live
      exact live

/-- A queue without running command buffers moves to an unreferenced buffer or to none. -/
theorem setQueue (references : References state) {index : Nat} {queue : PreemptionQueue}
    (fresh : ∀ bo, queue.preemptionBuffer = some bo →
      bo ∈ state.ctx.preemptionBuffers ∧ some bo ∉ state.queueReferences)
    (unused : queue.live = true → ∀ bo, ∀ user ∈ state.users, (index, some bo) ∉ user.submitted) :
    References (state.setQueue index queue) := by
  have queues := state.setQueue_queueReferences index queue
  constructor
  · intro bo referenced
    rcases mem_references.mp referenced with held | user
    · rw [queues] at held
      rcases List.mem_or_eq_of_mem_set held with before | moved
      · exact references.cached bo (mem_references.mpr (.inl before))
      · exact (fresh bo moved.symm).1
    · exact references.cached bo (mem_references.mpr (.inr user))
  · rw [queues]
    exact references.unshared.set index fun bo moved => (fresh bo moved).2
  · exact references.older
  · intro user member other bo uses
    obtain ⟨inside, held, follows⟩ := references.submitted user member other bo uses
    refine ⟨by rwa [PreemptionState.setQueue, List.length_set], held, fun live => ?_⟩
    by_cases same : other = index
    · subst same
      obtain ⟨kept, found, alive⟩ := live
      rw [PreemptionState.setQueue, List.getElem?_set_self inside] at found
      cases found
      exact (unused alive bo user member uses).elim
    · rw [queues, List.getElem?_set_ne (Ne.symm same)]
      exact follows ((setQueue_live same).mp live)

/-- Only idle buffers are pruned, and nothing refers to them. -/
theorem prune_cached (references : References state) (bo : VPUBufferObject)
    (referenced : some bo ∈ state.references) : bo ∈ state.prune.ctx.preemptionBuffers := by
  have member := references.cached bo referenced
  refine mem_dropIdle _ _ member ?_
  rw [beq_eq_false_iff_ne]
  exact not_idle_of_referenced member referenced

theorem prune (references : References state) : References state.prune where
  cached := references.prune_cached
  unshared := references.unshared
  older := fun bo member => references.older bo ((dropIdle_sublist _ _ _).subset member)
  submitted := references.submitted

/-- The cache only grows by an acquisition. -/
theorem acquired (references : References state) {acquired : Option VPUBufferObject} {ctx : VPUDeviceContext}
    (outcome : Acquired state acquired ctx) : References { state with ctx := ctx } := by
  constructor
  · intro bo referenced
    have before := references.cached bo referenced
    cases outcome with
    | failed same | cached _ _ same => exact same.symm ▸ before
    | new _ added => exact added.symm ▸ List.mem_append_left _ before
  · exact references.unshared
  · intro bo member
    cases outcome with
    | failed same created | cached _ _ same created =>
      exact Nat.lt_of_lt_of_le (references.older bo (same ▸ member)) created
    | new fresh added created =>
      rcases List.mem_append.mp (added ▸ member) with before | last
      · exact Nat.lt_trans (references.older bo before) created
      · rw [List.mem_singleton.mp last, fresh]
        exact created
  · exact references.submitted

/-- A live queue without a buffer has no running command buffer that uses one. -/
theorem unused (references : References state) {index : Nat} {queue : PreemptionQueue}
    (found : state.queues[index]? = some queue) (live : queue.live = true) {bo : VPUBufferObject}
    (different : queue.preemptionBuffer ≠ some bo) : ∀ user ∈ state.users, (index, some bo) ∉ user.submitted := by
  intro user member uses
  obtain ⟨-, -, follows⟩ := references.submitted user member index bo uses
  have held := follows ⟨queue, found, live⟩
  rw [queueReferences, List.getElem?_map, found] at held
  exact different (Option.some.inj held)

theorem acquirePreemptionBuffer (references : References state) {index : Nat} {queue : PreemptionQueue}
    (found : state.queues[index]? = some queue) (live : queue.live = true) :
    References (state.acquirePreemptionBuffer index queue) := by
  rw [PreemptionState.acquirePreemptionBuffer]
  split
  · cases empty : queue.preemptionBuffer with
    | some bo => exact references
    | none =>
      have outcome := state.preemptionCacheAcquire_acquired
      generalize state.counted.preemptionCacheAcquire = answer at outcome
      obtain ⟨acquired, ctx⟩ := answer
      have unused : ∀ bo, ∀ user ∈ state.users, (index, some bo) ∉ user.submitted := fun bo =>
        references.unused found live (by rw [empty]; nofun)
      refine (references.acquired outcome).setQueue ?_ fun _ => unused
      rintro bo moved
      cases moved
      have unreferenced : some bo ∉ state.references → some bo ∉ state.queueReferences :=
        fun absent held => absent (mem_references.mpr (.inl held))
      cases outcome with
      | cached member idle same =>
        exact ⟨same.symm ▸ member, unreferenced (unreferenced_of_idle member idle)⟩
      | new fresh added _ =>
        refine ⟨added.symm ▸ List.mem_append_right _ (List.mem_singleton_self bo), unreferenced fun held => ?_⟩
        have old := references.older bo (references.cached bo held)
        rw [fresh] at old
        exact Nat.lt_irrefl _ old
  · exact references

/-- Only a command buffer without a buffer, and hence without running submissions that use one, takes
that of the queue. -/
theorem addPreemptionBuffer (references : References state) {queue : PreemptionQueue}
    (member : queue ∈ state.queues) (job : Nat) : References (state.addPreemptionBuffer queue job) := by
  rw [PreemptionState.addPreemptionBuffer]
  cases held : queue.preemptionBuffer with
  | none => exact references
  | some bo =>
    have inside := references.queue_cached member held
    have changed : ∀ user ∈ state.users.map fun user => if user.job = job then user.addPreemptionBuffer bo else user,
        user ∈ state.users ∨ user.preemptionBuffer = some bo ∧ ∀ queue bo, (queue, some bo) ∉ user.submitted := by
      intro user member
      obtain ⟨before, known, rfl⟩ := List.mem_map.mp member
      split
      · rw [PreemptionUser.addPreemptionBuffer]
        split
        · exact .inl known
        · rename_i empty
          refine .inr ⟨rfl, fun index other uses => ?_⟩
          obtain ⟨-, holds, -⟩ := references.submitted before known index other uses
          rw [empty] at holds
          cases holds
      · exact .inl known
    apply references.setUsers
    · intro user member other holds
      rcases changed user member with before | ⟨taken, -⟩
      · exact references.user_cached before holds
      · cases taken.symm.trans holds
        exact inside
    · intro user member index other uses
      rcases changed user member with before | ⟨-, idle⟩
      · exact references.submitted user before index other uses
      · exact (idle index other uses).elim

theorem setUser (references : References state) {index : Nat} {user : PreemptionUser}
    (cached : ∀ bo, user.preemptionBuffer = some bo → bo ∈ state.ctx.preemptionBuffers)
    (submitted : ∀ queue bo, (queue, some bo) ∈ user.submitted →
      queue < state.queues.length ∧ user.preemptionBuffer = some bo ∧
        (state.Live queue → state.queueReferences[queue]? = some (some bo))) :
    References { state with users := state.users.set index user } := by
  apply references.setUsers
  · intro other changed bo holds
    rcases List.mem_or_eq_of_mem_set changed with before | rfl
    · exact references.user_cached before holds
    · exact cached bo holds
  · intro other changed queue bo uses
    rcases List.mem_or_eq_of_mem_set changed with before | rfl
    · exact references.submitted other before queue bo uses
    · exact submitted queue bo uses

theorem submit (references : References state) {index place : Nat} {user : PreemptionUser} (accepted : Bool)
    (inside : index < state.queues.length) (found : state.users[place]? = some user)
    (own : ∀ bo, user.preemptionBuffer = some bo → state.queueReferences[index]? = some (some bo)) :
    References (state.submit index place user accepted) := by
  have member := List.mem_of_getElem? found
  rw [PreemptionState.submit]
  split
  · apply references.setUser
    · exact fun bo holds => references.user_cached member holds
    · intro queue bo uses
      rcases List.mem_cons.mp uses with last | before
      · obtain ⟨rfl, holds⟩ := Prod.mk.inj last
        exact ⟨inside, holds.symm, fun _ => own bo holds.symm⟩
      · exact references.submitted user member queue bo before
  · exact references

theorem waitForCompletion (references : References state) (place : Nat) (user : PreemptionUser) (granted : Bool) :
    References (state.waitForCompletion place user granted) := by
  rw [PreemptionState.waitForCompletion]
  split
  · exact references.setUser nofun nofun
  · exact references

/-- A buffer that a running command buffer uses has at least three holders. -/
theorem putBackPreemptionBuffer (references : References state) {index : Nat} {queue : PreemptionQueue}
    (found : state.queues[index]? = some queue) (live : queue.live = true) :
    References (state.putBackPreemptionBuffer index queue) := by
  rw [PreemptionState.putBackPreemptionBuffer]
  cases held : queue.preemptionBuffer with
  | none => exact references
  | some bo =>
    simp only
    split
    · rename_i answered
      have member := List.mem_of_getElem? found
      refine references.setQueue nofun fun _ other user known uses => ?_
      by_cases same : bo = other
      · subst same
        obtain ⟨-, holds, -⟩ := references.submitted user known index bo uses
        have queueHolds : some bo ∈ state.queueReferences := List.mem_map.mpr ⟨queue, member, held⟩
        have userHolds : some bo ∈ state.userReferences := List.mem_map.mpr ⟨user, known, holds⟩
        exact useCount_ne_two (references.queue_cached member held) queueHolds userHolds answered.2
      · refine references.unused found live ?_ user known uses
        rw [held]
        exact fun equal => same (Option.some.inj equal)
    · exact references

theorem destroyCommands (references : References state) (job : Nat) : References (state.destroyCommands job) := by
  have changed : ∀ user ∈ state.users.map fun user => if user.job = job then user.released else user,
      user ∈ state.users ∨ user.preemptionBuffer = none ∧ user.submitted = [] := by
    intro user member
    obtain ⟨before, known, rfl⟩ := List.mem_map.mp member
    split
    · exact .inr ⟨rfl, rfl⟩
    · exact .inl known
  apply references.setUsers
  · intro user member bo holds
    rcases changed user member with before | ⟨empty, -⟩
    · exact references.user_cached before holds
    · rw [empty] at holds
      cases holds
  · intro user member queue bo uses
    rcases changed user member with before | ⟨-, idle⟩
    · exact references.submitted user before queue bo uses
    · rw [idle] at uses
      cases uses

theorem closeCommands (references : References state) (job count : Nat) :
    References (state.closeCommands job count) := by
  apply references.setUsers
  · intro user member bo holds
    rcases List.mem_append.mp member with before | new
    · exact references.user_cached before holds
    · rw [List.eq_of_mem_replicate new] at holds
      cases holds
  · intro user member queue bo uses
    rcases List.mem_append.mp member with before | new
    · exact references.submitted user before queue bo uses
    · rw [List.eq_of_mem_replicate new] at uses
      cases uses

end References

theorem withQueue_cases (state : PreemptionState) (index : Nat) (change : PreemptionQueue → PreemptionState) :
    state.withQueue index change = state ∨ ∃ queue, state.queues[index]? = some queue ∧ queue.live = true ∧
      state.withQueue index change = change queue := by
  rw [withQueue]
  split
  · exact .inl rfl
  · rename_i queue found
    split
    · rename_i live
      exact .inr ⟨queue, found, live, rfl⟩
    · exact .inl rfl

theorem withUser_cases (state : PreemptionState) (index : Nat) (change : PreemptionUser → PreemptionState) :
    state.withUser index change = state ∨ ∃ user, state.users[index]? = some user ∧
      state.withUser index change = change user := by
  rw [withUser]
  split
  · exact .inl rfl
  · rename_i user found
    exact .inr ⟨user, found, rfl⟩

theorem References.step (call : PreemptionCall) (references : References state) (orderly : state.Orderly call) :
    References (state.step call) := by
  have onQueue : ∀ {index : Nat} {change : PreemptionQueue → PreemptionState},
      (∀ queue, state.queues[index]? = some queue → queue.live = true → References (change queue)) →
        References (state.withQueue index change) := by
    intro index change changed
    rcases state.withQueue_cases index change with same | ⟨queue, found, live, same⟩
    · rwa [same]
    · rw [same]
      exact changed queue found live
  have onUser : ∀ {index : Nat} {change : PreemptionUser → PreemptionState},
      (∀ user, state.users[index]? = some user → References (change user)) →
        References (state.withUser index change) := by
    intro index change changed
    rcases state.withUser_cases index change with same | ⟨user, found, same⟩
    · rwa [same]
    · rw [same]
      exact changed user found
  cases call with
  | createQueue => exact references.createQueue
  | destroyQueue index =>
    refine onQueue fun _ _ _ => References.prune ?_
    exact references.setQueue nofun nofun
  | closeCommands job count => exact references.closeCommands job count
  | acquirePreemptionBuffer index => exact onQueue fun _ found live => references.acquirePreemptionBuffer found live
  | addPreemptionBuffer index job =>
    exact onQueue fun _ found _ => references.addPreemptionBuffer (List.mem_of_getElem? found) job
  | submit index place accepted =>
    refine onQueue fun queue found _ => onUser fun user held => ?_
    obtain ⟨inside, -⟩ := List.getElem?_eq_some_iff.mp found
    exact references.submit accepted inside held (orderly user held)
  | waitForCompletion place granted => exact onUser fun user _ => references.waitForCompletion place user granted
  | putBackPreemptionBuffer index => exact onQueue fun _ found live => references.putBackPreemptionBuffer found live
  | destroyCommands job => exact references.destroyCommands job
  | releaseMemory => exact references.prune

theorem prune_numQueues (state : PreemptionState) : state.prune.numQueues = state.numQueues - 1 := by
  have decremented : (if state.numQueues > 0 then state.numQueues - 1 else state.numQueues) =
      state.numQueues - 1 := by
    split <;> omega
  exact decremented

/-- A set queue counts as before, except where it stops to be live. -/
theorem liveQueues_setQueue {index : Nat} {queue changed : PreemptionQueue}
    (found : state.queues[index]? = some queue) (live : queue.live = true) :
    0 < state.liveQueues ∧
      (state.setQueue index changed).liveQueues = state.liveQueues - 1 + if changed.live then 1 else 0 := by
  obtain ⟨inside, same⟩ := List.getElem?_eq_some_iff.mp found
  rw [liveQueues, liveQueues, setQueue, ← List.countP_eq_length_filter, ← List.countP_eq_length_filter,
    List.countP_set inside, same, if_pos live]
  exact ⟨List.countP_pos_iff.mpr ⟨queue, List.mem_of_getElem? found, live⟩, rfl⟩

theorem setQueue_counter {index : Nat} {queue changed : PreemptionQueue}
    (counter : state.numQueues = state.liveQueues) (found : state.queues[index]? = some queue)
    (live : queue.live = true) (still : changed.live = true) :
    (state.setQueue index changed).numQueues = (state.setQueue index changed).liveQueues := by
  obtain ⟨positive, count⟩ := @liveQueues_setQueue state index queue changed found live
  have same : (state.setQueue index changed).numQueues = state.numQueues := rfl
  rw [count, if_pos still, same, counter]
  omega

theorem destroyQueue_counter {index : Nat} {queue : PreemptionQueue}
    (counter : state.numQueues = state.liveQueues) (found : state.queues[index]? = some queue)
    (live : queue.live = true) : (state.destroyQueue index).numQueues = (state.destroyQueue index).liveQueues := by
  obtain ⟨-, count⟩ := @liveQueues_setQueue state index queue ⟨none, false⟩ found live
  have numQueues := prune_numQueues (state.setQueue index ⟨none, false⟩)
  have queues : (state.destroyQueue index).liveQueues = (state.setQueue index ⟨none, false⟩).liveQueues := rfl
  rw [queues, count, destroyQueue, numQueues]
  exact congrArg (· - 1) counter

/-- Only creation and destruction of a queue move the counter, when memory is released without queues. -/
theorem step_counter (call : PreemptionCall) (counter : state.numQueues = state.liveQueues)
    (orderly : state.Orderly call) : (state.step call).numQueues = (state.step call).liveQueues := by
  have onQueue : ∀ {index : Nat} {change : PreemptionQueue → PreemptionState},
      (∀ queue, state.queues[index]? = some queue → queue.live = true →
        (change queue).numQueues = (change queue).liveQueues) →
      (state.withQueue index change).numQueues = (state.withQueue index change).liveQueues := by
    intro index change changed
    rcases state.withQueue_cases index change with same | ⟨queue, found, live, same⟩
    · rwa [same]
    · rw [same]
      exact changed queue found live
  cases call with
  | createQueue =>
    rw [step, createQueue, liveQueues, List.filter_append, List.length_append]
    exact congrArg (· + 1) counter
  | destroyQueue index => exact onQueue fun _ found live => destroyQueue_counter counter found live
  | closeCommands job count => exact counter
  | acquirePreemptionBuffer index =>
    refine onQueue fun queue found live => ?_
    rw [acquirePreemptionBuffer]
    split
    · split
      · exact counter
      · exact @setQueue_counter { state with ctx := _ } index queue _ counter found live live
    · exact counter
  | addPreemptionBuffer index job =>
    refine onQueue fun queue _ _ => ?_
    rw [addPreemptionBuffer]
    split <;> exact counter
  | submit index place accepted =>
    refine onQueue fun queue _ _ => ?_
    rcases state.withUser_cases place fun held => state.submit index place held accepted with same | ⟨user, -, same⟩
    · rwa [same]
    · rw [same, submit]
      split <;> exact counter
  | waitForCompletion place granted =>
    rcases state.withUser_cases place fun held => state.waitForCompletion place held granted with same | ⟨user, -, same⟩
    · rwa [step, same]
    · rw [step, same, waitForCompletion]
      split <;> exact counter
  | putBackPreemptionBuffer index =>
    refine onQueue fun queue found live => ?_
    rw [putBackPreemptionBuffer]
    split
    · exact counter
    · split
      · exact setQueue_counter counter found live live
      · exact counter
  | destroyCommands job => exact counter
  | releaseMemory =>
    have empty : state.numQueues = 0 := orderly
    rw [step, prune_numQueues, empty]
    exact empty.symm.trans counter

/-- The cache stays as large as the number of queues that are left, unless it was smaller and had
something to prune. -/
theorem prune_enough (kept : state.numQueues - 1 < state.ctx.preemptionBuffers.length ∨ state.NoneIdle) :
    min state.ctx.preemptionBuffers.length (state.numQueues - 1) ≤ state.prune.ctx.preemptionBuffers.length := by
  have numQueues : (if state.numQueues > 0 then state.numQueues - 1 else state.numQueues) = state.numQueues - 1 :=
    state.prune_numQueues
  rcases kept with many | none
  · have length := dropIdle_length (fun bo => state.uses bo == 1)
      (state.ctx.preemptionBuffers.length - (state.numQueues - 1)) state.ctx.preemptionBuffers
    simp only [prune, numQueues, if_pos many]
    omega
  · have busy : ∀ bo ∈ state.ctx.preemptionBuffers, (state.uses bo == 1) = false := fun bo member =>
      beq_eq_false_iff_ne.mpr (none bo member)
    simp only [prune, dropIdle_busy busy]
    exact Nat.min_le_left _ _

/-- Nothing is taken out of a cache that only grows. -/
theorem Pruned.grown {after : PreemptionState} (kept : state.ctx.preemptionBuffers <+: after.ctx.preemptionBuffers) :
    Pruned state after where
  unheld := fun _ member dropped => (dropped (kept.subset member)).elim
  enough := Nat.le_trans (Nat.min_le_left _ _) kept.length_le

theorem Acquired.grown {acquired : Option VPUBufferObject} {ctx : VPUDeviceContext}
    (outcome : Acquired state acquired ctx) : state.ctx.preemptionBuffers <+: ctx.preemptionBuffers := by
  cases outcome with
  | failed same | cached _ _ same => exact same ▸ List.prefix_refl _
  | new _ added => exact added ▸ List.prefix_append _ _

theorem step_pruned (call : PreemptionCall) (references : References state)
    (counter : state.numQueues = state.liveQueues) (orderly : state.Orderly call) :
    Pruned state (state.step call) := by
  have onQueue : ∀ {index : Nat} {change : PreemptionQueue → PreemptionState},
      (∀ queue, state.queues[index]? = some queue → queue.live = true → Pruned state (change queue)) →
        Pruned state (state.withQueue index change) := by
    intro index change changed
    rcases state.withQueue_cases index change with same | ⟨queue, found, live, same⟩
    · rw [same]
      exact .grown (List.prefix_refl _)
    · rw [same]
      exact changed queue found live
  have same : ∀ {after : PreemptionState}, after.ctx = state.ctx → Pruned state after := fun same =>
    .grown (same ▸ List.prefix_refl _)
  cases call with
  | createQueue | closeCommands _ _ | destroyCommands _ => exact same rfl
  | destroyQueue index =>
    refine onQueue fun queue found live => ?_
    obtain ⟨-, count⟩ := @liveQueues_setQueue state index queue ⟨none, false⟩ found live
    have dropped : References (state.setQueue index ⟨none, false⟩) := references.setQueue nofun nofun
    constructor
    · intro bo _ gone referenced
      exact gone (dropped.prune_cached bo referenced)
    · have enough := @prune_enough (state.setQueue index ⟨none, false⟩) orderly
      have queues : (state.destroyQueue index).liveQueues = state.numQueues - 1 :=
        count.trans (congrArg (· - 1) counter.symm)
      rw [queues]
      exact enough
  | acquirePreemptionBuffer index =>
    refine onQueue fun queue _ _ => ?_
    rw [acquirePreemptionBuffer]
    split
    · split
      · exact same rfl
      · exact .grown state.preemptionCacheAcquire_acquired.grown
    · exact same rfl
  | addPreemptionBuffer index job =>
    refine onQueue fun queue _ _ => ?_
    rw [addPreemptionBuffer]
    split <;> exact same rfl
  | submit index place accepted =>
    refine onQueue fun queue _ _ => ?_
    rcases state.withUser_cases place fun held => state.submit index place held accepted with unknown | ⟨user, -, known⟩
    · exact same (congrArg PreemptionState.ctx unknown)
    · rw [known, submit]
      split <;> exact same rfl
  | waitForCompletion place granted =>
    rcases state.withUser_cases place fun held => state.waitForCompletion place held granted with unknown | ⟨user, -, known⟩
    · exact same (congrArg PreemptionState.ctx unknown)
    · rw [step, known, waitForCompletion]
      split <;> exact same rfl
  | putBackPreemptionBuffer index =>
    refine onQueue fun queue _ _ => ?_
    rw [putBackPreemptionBuffer]
    split
    · exact same rfl
    · split <;> exact same rfl
  | releaseMemory =>
    have empty : state.numQueues = 0 := orderly
    constructor
    · intro bo _ gone referenced
      exact gone (references.prune_cached bo referenced)
    · have none : (state.step .releaseMemory).liveQueues = 0 := counter.symm.trans empty
      rw [none, Nat.min_zero]
      exact Nat.zero_le _

/-- Two live queues that run with one buffer both hold it. -/
theorem References.follows (references : References state) (counter : state.numQueues = state.liveQueues) :
    FollowsQueues state where
  counter := counter
  exclusive := by
    intro first second bo left right
    have held : ∀ index, state.Unwaited index bo → state.queueReferences[index]? = some (some bo) := by
      rintro index ⟨live, user, member, uses⟩
      exact (references.submitted user member index bo uses).2.2 live
    exact references.unshared first second bo (held first left) (held second right)

end PreemptionState

open PreemptionState

/-- A context whose firmware takes preemption buffers. -/
def preemptingContext : VPUDeviceContext :=
  { grantingContext [] with hwInfo := { hwInfo40xx with fwPreemptBufSize := 4096 } }

/-- Two queues run a job each; one of the jobs is waited for and moves to the other queue. -/
def twoQueues : List PreemptionCall :=
  [.createQueue, .createQueue, .closeCommands 0 2, .closeCommands 1 1, .acquirePreemptionBuffer 0,
    .addPreemptionBuffer 0 0, .submit 0 0 true, .submit 0 1 true, .acquirePreemptionBuffer 1,
    .addPreemptionBuffer 1 1, .submit 1 2 true, .waitForCompletion 0 true, .waitForCompletion 1 true,
    .putBackPreemptionBuffer 0, .addPreemptionBuffer 1 0, .submit 1 0 true]

/-- Memory is released while two queues are live. -/
def releasedWithQueues : List PreemptionCall := [.createQueue, .createQueue]

/-- One of two queues is destroyed whose only buffer is idle. -/
def destroyedIdle : List PreemptionCall := [.createQueue, .createQueue, .acquirePreemptionBuffer 0]

/-- A job is executed on one queue and then, without a wait, on another one. -/
def movedUnwaited : List PreemptionCall :=
  [.createQueue, .createQueue, .closeCommands 0 1, .acquirePreemptionBuffer 0, .addPreemptionBuffer 0 0,
    .submit 0 0 true, .acquirePreemptionBuffer 1, .addPreemptionBuffer 1 0]

end NpuDriver
