import NpuDriver.Proof.ChainedProgress
import NpuDriver.Proof.ChainedSteps
import NpuDriver.Proof.OpenedQueue

/-! Jobs on an in-order queue, submitted in any order and any number of times: when they run one after the other, and
how they come to overtake or to block each other. -/

namespace NpuDriver

open Library VPUCommandBuffer

/-- All user commands of the run have been executed: at most the closing command is left. -/
def BufferRun.RanUserCommands (run : BufferRun) : Prop :=
  ∃ commands ∈ run.commands, commands.length ≤ run.executed + 1

namespace InOrderQueue

/-- User commands run only when those of the submission before theirs are complete. -/
def RunsInOrder (state : InOrderQueue) : Prop :=
  ∀ run ∈ state.runs, ∀ cb ∈ state.bufferAt run.slot, cb.RanUserCommand run.toBufferRun → 0 < run.submission →
    (∀ job ∈ state.submitted[run.submission - 1]?, ∀ index < state.count job,
      ∃ front ∈ state.runs, front.label = (run.submission - 1, ⟨job, index⟩)) ∧
    ∀ front ∈ state.runs, front.submission + 1 = run.submission → front.RanUserCommands

/-- The device can finish whatever has been submitted. -/
def CanFinish (state : InOrderQueue) : Prop :=
  ∃ actions : List QueueAction, (∀ action ∈ actions, action.ofDevice = true) ∧
    (runFrom step state actions).runs.map QueueRun.label = state.runs.map QueueRun.label ∧
    ∀ run ∈ (runFrom step state actions).runs, run.finished = true

end InOrderQueue

/-- The runs are in the order of their submissions. -/
theorem InOrderQueue.Numbered.ascends {state : InOrderQueue} (numbered : state.Numbered) {earlier later : Nat}
    {first second : QueueRun} (found : state.runs[earlier]? = some first) (there : state.runs[later]? = some second)
    (behind : earlier ≤ later) : first.submission ≤ second.submission := by
  obtain ⟨inside, rfl⟩ := List.getElem?_eq_some_iff.mp found
  obtain ⟨within, rfl⟩ := List.getElem?_eq_some_iff.mp there
  rcases Nat.eq_or_lt_of_le behind with rfl | before
  · exact Nat.le_refl _
  · exact List.pairwise_iff_getElem.mp (List.pairwise_map.mp numbered.sorted) earlier later inside within before

namespace InChain

variable {places : Slot → Option Place} {patches : Patches} {state : InOrderQueue}

/-- A run that has executed a user command has executed the wait in front of it. -/
theorem begun (inv : InChain places patches state) {position : Nat} {run : QueueRun}
    (present : state.runs[position]? = some run) {cb : VPUCommandBuffer} (found : state.bufferAt run.slot = some cb)
    (ran : cb.RanUserCommand run.toBufferRun) : 0 < run.executed := by
  obtain ⟨commands, started, bound⟩ := ran
  obtain ⟨waitsFor, reads, -⟩ := inv.chained.reads present started
  obtain ⟨place, known, length⟩ := reads.length
  rw [inv.chained.place found] at known
  have users : place.users = cb.userCount := by rw [← Option.some.inj known]; rfl
  omega

theorem runsInOrder (inv : InChain places patches state) : state.RunsInOrder := by
  intro run member cb found ran later
  obtain ⟨position, present⟩ := List.mem_iff_getElem?.mp member
  have begun := inv.begun present found ran
  have numbered := inv.numbered
  have own : (run.submission, run.slot) ∈ state.runs.map QueueRun.label := List.mem_map.mpr ⟨run, member, rfl⟩
  obtain ⟨inside, -⟩ := List.getElem?_eq_some_iff.mp (numbered.known _ own)
  refine ⟨fun job found index below => ?_, fun front there before => ?_⟩
  · rcases numbered.complete (run.submission - 1) job found index below with accepted | ⟨last, -⟩
    · obtain ⟨front, there, same⟩ := List.mem_map.mp accepted
      exact ⟨front, there, same⟩
    · simp only at inside
      omega
  · obtain ⟨place, there⟩ := List.mem_iff_getElem?.mp there
    have ahead : place < position := by
      by_contra behind
      have ascends := numbered.ascends present there (Nat.not_lt.mp behind)
      omega
    have finished := inv.chained.ordered place position front run ahead there present begun
    cases started : front.commands with
    | none =>
      rw [BufferRun.finished, started] at finished
      cases finished
    | some commands =>
      rw [BufferRun.finished, started] at finished
      exact ⟨commands, started, Nat.le_succ_of_le (of_decide_eq_true finished)⟩

theorem canFinish (inv : InChain places patches state) : state.CanFinish := by
  obtain ⟨actions, ofDevice, chained, labels, front⟩ := inv.chained.finish_front state.runs.length
  refine ⟨actions, ofDevice, labels, fun run member => ?_⟩
  obtain ⟨position, present⟩ := List.mem_iff_getElem?.mp member
  obtain ⟨inside, -⟩ := List.getElem?_eq_some_iff.mp present
  have count := congrArg List.length labels
  rw [List.length_map, List.length_map] at count
  exact front position run (count ▸ inside) present

end InChain

open InOrderQueue

/-- In a run in which the host finds the heads, words and fences of the command buffers free when it patches and submits
them, the jobs of an in-order queue run one after the other, and the device is never stuck. -/
theorem in_order_submissions {queue : VPUDeviceQueueManaged} {jobs : List VPUJob} {ctx : VPUDeviceContext}
    (fresh : ∀ job ∈ jobs, job.Fresh) (inOrder : queue.isInOrder = true) (unused : queue.lastWaitBo = none)
    (placed : (opened queue jobs ctx).Placed) {actions : List QueueAction}
    (guarded : Guarded InOrderQueue.step KeepsChain (opened queue jobs ctx) actions) :
    (runFrom InOrderQueue.step (opened queue jobs ctx) actions).RunsInOrder ∧
      (runFrom InOrderQueue.step (opened queue jobs ctx) actions).CanFinish := by
  obtain ⟨patches, initial⟩ := opened_inChain fresh inOrder unused placed
  have keeps : ∀ (state : InOrderQueue) action, (∃ patches, InChain (opened queue jobs ctx).places patches state) →
      state.KeepsChain action → ∃ patches, InChain (opened queue jobs ctx).places patches (state.step action) := by
    rintro state action ⟨patches, inv⟩ guard
    exact inv.step guard
  obtain ⟨patches, inv⟩ := guarded_invariant keeps ⟨patches, initial⟩ guarded
  exact ⟨inv.runsInOrder, inv.canFinish⟩

namespace InOrderQueue

/-- Every run that is not over waits for a fence that is not raised, and there is one. -/
def Stuck (state : InOrderQueue) : Prop :=
  (∃ run ∈ state.runs, run.finished = false) ∧ ∀ run ∈ state.runs, run.commands.isSome ∧
    ∀ bytes ∈ (run.commands.getD [])[run.executed]?, ∃ fence ∈ decodeFence bytes,
      fence.type = VPU_CMD_FENCE_WAIT ∧ state.waitPasses fence = false

theorem Stuck.step {state : InOrderQueue} (stuck : state.Stuck) {action : QueueAction} (device : action.ofDevice = true) :
    state.step action = state := by
  cases action with
  | submit job => cases device
  | hostStep => cases device
  | hostBusy => cases device
  | start position =>
    rw [InOrderQueue.step, InOrderQueue.start]
    cases found : state.runs[position]? with
    | none => rfl
    | some run =>
      obtain ⟨commands, started⟩ := Option.isSome_iff_exists.mp (stuck.2 run (List.mem_of_getElem? found)).1
      simp only [started]
  | execute position =>
    rw [InOrderQueue.step, InOrderQueue.execute]
    cases found : state.runs[position]? with
    | none => rfl
    | some run =>
      simp only
      cases next : (run.commands.getD [])[run.executed]? with
      | none => rfl
      | some bytes =>
        obtain ⟨fence, decoded, wait, blocked⟩ := (stuck.2 run (List.mem_of_getElem? found)).2 bytes next
        have decoded : decodeFence bytes = some fence := decoded
        simp only [decoded, wait, blocked]
        rfl

/-- The device finishes nothing of what is stuck. -/
theorem Stuck.not_canFinish {state : InOrderQueue} (stuck : state.Stuck) : ¬state.CanFinish := by
  rintro ⟨actions, ofDevice, -, finishes⟩
  have stays : runFrom InOrderQueue.step state actions = state := by
    induction actions with
    | nil => rfl
    | cons action rest ih =>
      have same := stuck.step (ofDevice action List.mem_cons_self)
      rw [runFrom, List.foldl_cons, same]
      exact ih (fun other member => ofDevice other (List.mem_cons_of_mem action member)) (same ▸ finishes)
  obtain ⟨run, member, unfinished⟩ := stuck.1
  have finished := finishes run (stays.symm ▸ member)
  rw [unfinished] at finished
  cases finished

instance (run : BufferRun) : Decidable run.RanUserCommands := by
  unfold BufferRun.RanUserCommands
  infer_instance

instance (state : InOrderQueue) : Decidable state.RunsInOrder := by
  unfold RunsInOrder
  infer_instance

instance (state : InOrderQueue) : Decidable state.Placed := by
  unfold Placed
  infer_instance

instance (state : InOrderQueue) : Decidable state.Stuck := by
  unfold Stuck
  infer_instance

instance (state : InOrderQueue) : Decidable state.HeadFree := by
  unfold HeadFree
  infer_instance

instance (state : InOrderQueue) (slot : Slot) : Decidable (state.WordFree slot) := by
  unfold WordFree
  infer_instance

instance (state : InOrderQueue) (slot : Slot) : Decidable (state.FenceSettled slot) := by
  unfold FenceSettled
  infer_instance

instance (state : InOrderQueue) (action : QueueAction) : Decidable (state.KeepsChain action) := by
  unfold KeepsChain
  split <;> infer_instance

end InOrderQueue

def barrierJob : VPUJob where
  commands :=
    [{ command := .barrier, sType := .Generic, bufferObjects := [], descriptor := none, cmdNeedsUpdate := false
       sized := trivial }]
  cmdBuffers := []
  closed := false
  hasInOrderWorkload := false

/-- A fresh in-order queue and three jobs of one command each. -/
def threeJobs : InOrderQueue :=
  .opened ⟨1, 1, 1, true, false, none⟩ (List.replicate 3 barrierJob) (grantingContext [])

/-- The host submits a job; a step that is not needed does nothing. -/
def submitJob (job : Nat) : List QueueAction := .submit job :: List.replicate 5 .hostStep

/-- The device executes commands of a run. -/
def executeRun (run count : Nat) : List QueueAction := List.replicate count (.execute run)

/-- The second job is still running when the first one is submitted again. -/
def resubmitted : List QueueAction :=
  submitJob 0 ++ submitJob 1 ++ [.start 0, .start 1] ++ executeRun 0 2 ++ executeRun 1 2 ++ submitJob 0 ++ submitJob 2 ++
    [.start 2, .start 3] ++ executeRun 1 2 ++ executeRun 2 4 ++ executeRun 3 3

theorem in_order_submissions_resubmitted :
    Guarded InOrderQueue.step KeepsChain threeJobs resubmitted ∧
      (runFrom InOrderQueue.step threeJobs resubmitted).RunsInOrder ∧
      (runFrom InOrderQueue.step threeJobs resubmitted).CanFinish := by
  have fresh : ∀ job ∈ List.replicate 3 barrierJob, job.Fresh := fun job member =>
    List.eq_of_mem_replicate member ▸ ⟨rfl, rfl⟩
  have guarded : Guarded InOrderQueue.step KeepsChain threeJobs resubmitted := by decide +kernel
  exact ⟨guarded, in_order_submissions fresh rfl rfl (by decide +kernel) guarded⟩

/-- The first job has read its commands, but not executed them, when it is submitted again. -/
def overtaking : List QueueAction :=
  submitJob 0 ++ submitJob 1 ++ [.start 0, .start 1] ++ submitJob 0 ++ submitJob 2 ++ [.start 2, .start 3] ++
    executeRun 0 2 ++ executeRun 3 3

/-- The first job has not even read its commands. -/
def blocking : List QueueAction := submitJob 0 ++ submitJob 1 ++ submitJob 0 ++ [.start 0, .start 1, .start 2]

/-- The last job passes on the signal of the first submission, while the second job and the first one still wait; and
the first submission waits for the second job, which waits for it. -/
theorem resubmission_overtakes :
    threeJobs.Placed ∧
      (runFrom InOrderQueue.step threeJobs overtaking).runs.map QueueRun.label =
        [(0, ⟨0, 0⟩), (1, ⟨1, 0⟩), (2, ⟨0, 0⟩), (3, ⟨2, 0⟩)] ∧
      ¬(runFrom InOrderQueue.step threeJobs overtaking).RunsInOrder ∧
      (runFrom InOrderQueue.step threeJobs blocking).runs.map QueueRun.label =
        [(0, ⟨0, 0⟩), (1, ⟨1, 0⟩), (2, ⟨0, 0⟩)] ∧
      ¬(runFrom InOrderQueue.step threeJobs blocking).CanFinish := by
  have stuck : (runFrom InOrderQueue.step threeJobs blocking).Stuck := by decide +kernel
  exact ⟨by decide +kernel, by decide +kernel, by decide +kernel, by decide +kernel, stuck.not_canFinish⟩

end NpuDriver
