import NpuDriver.Library.Runs
import NpuDriver.Proof.FencedRuns

/-! Fences inside a job of several command buffers, over whole series of submissions. -/

namespace NpuDriver

open Library VPUCommandBuffer

/-- A run has signalled the fence of its command buffer. -/
def VPUCommandBuffer.Signalled (cb : VPUCommandBuffer) (run : BufferRun) : Prop :=
  ∃ bytes ∈ run.done, decodeFence bytes = some ⟨VPU_CMD_FENCE_SIGNAL, cb.fenceAddress, STATE_DEVICE_SIGNAL⟩

/-- A user command of the run has been executed: behind these comes only the closing command. -/
def VPUCommandBuffer.RanUserCommand (cb : VPUCommandBuffer) (run : BufferRun) : Prop :=
  ∃ commands ∈ run.commands, commands.length < run.executed + cb.userCount + 1

namespace FencedJob

/-- User commands run only after the command buffer in front of theirs has signalled in the same submission. -/
def SignalsFirst (fenced : FencedJob) : Prop :=
  ∀ run ∈ fenced.runs, 0 < run.index → ∀ cb ∈ fenced.job.cmdBuffers[run.index]?,
    ∀ front ∈ fenced.job.cmdBuffers[run.index - 1]?, cb.RanUserCommand run →
      ∃ partner ∈ fenced.runs, partner.submission = run.submission ∧ partner.index + 1 = run.index ∧
        front.Signalled partner

/-- The fence words of the command buffers lie apart, and no command of the job names one. -/
def Placed (fenced : FencedJob) : Prop :=
  (fenced.job.cmdBuffers.map fenceAddress).Nodup ∧
    ∀ cmd ∈ fenced.job.commands, ∀ fence ∈ decodeFence cmd.getCommitStream,
      ∀ cb ∈ fenced.job.cmdBuffers, cb.fenceAddress ≠ fence.address

/-- The fence word is clear, and every earlier run of the command buffer has signalled, unless no other one follows. -/
def FenceClear (fenced : FencedJob) (index : Nat) : Prop :=
  index + 1 < fenced.job.cmdBuffers.length → ∀ cb ∈ fenced.job.cmdBuffers[index]?,
    cb.fenceValue < STATE_WAIT ∧ ∀ run ∈ fenced.runs, run.index = index → cb.Signalled run

/-- A command buffer is accepted only while its fence is clear. -/
def AcceptsClear (fenced : FencedJob) (action : FencedAction) : Prop :=
  match action, fenced.pending with
  | .hostStep, .commandQueueSubmit index _ :: _ => fenced.FenceClear index
  | _, _ => True

end FencedJob

instance (cb : VPUCommandBuffer) (run : BufferRun) : Decidable (cb.Signalled run) := by
  unfold VPUCommandBuffer.Signalled
  infer_instance

instance (cb : VPUCommandBuffer) (run : BufferRun) : Decidable (cb.RanUserCommand run) := by
  unfold VPUCommandBuffer.RanUserCommand
  infer_instance

instance (fenced : FencedJob) : Decidable fenced.SignalsFirst := by
  unfold FencedJob.SignalsFirst
  infer_instance

instance (fenced : FencedJob) : Decidable fenced.Placed := by
  unfold FencedJob.Placed
  infer_instance

instance (fenced : FencedJob) (index : Nat) : Decidable (fenced.FenceClear index) := by
  unfold FencedJob.FenceClear
  infer_instance

namespace Fenced

variable {frames : List FenceFrame} {fenced : FencedJob}

/-- The last command of a run is its only signal of the own fence. -/
theorem signalled_iff (inv : Fenced frames fenced) {run : BufferRun} (member : run ∈ fenced.runs) {cb : VPUCommandBuffer}
    (found : fenced.job.cmdBuffers[run.index]? = some cb) (follows : run.index + 1 < frames.length) :
    cb.Signalled run ↔ run.finished = true := by
  have frame := inv.frame found
  cases started : run.commands with
  | none => simp [VPUCommandBuffer.Signalled, BufferRun.done, BufferRun.finished, started]
  | some commands =>
    obtain ⟨front, closing, rfl, reads⟩ := inv.reads run member commands started
    rw [VPUCommandBuffer.Signalled, BufferRun.done, BufferRun.finished, started]
    simp only [Option.getD_some, decide_eq_true_eq]
    constructor
    · rintro ⟨bytes, done, signal⟩
      by_contra unfinished
      rw [List.length_append, List.length_singleton] at unfinished
      rw [List.take_append_of_le_length (by omega)] at done
      have low : STATE_DEVICE_SIGNAL < STATE_WAIT := reads.low bytes (List.mem_of_mem_take done) _ signal
        (by decide : VPU_CMD_FENCE_SIGNAL ≠ VPU_CMD_FENCE_WAIT) ⟨cb.frame, List.mem_of_getElem? frame, rfl⟩
      exact absurd low (by decide)
    · intro finished
      obtain ⟨own, place, signal⟩ := reads.signals follows
      obtain rfl := Option.some.inj (frame.symm.trans place)
      refine ⟨closing, ?_, signal⟩
      rw [List.take_of_length_le finished]
      exact List.mem_append_right _ (List.mem_singleton_self closing)

theorem signalsFirst (inv : Fenced frames fenced) : fenced.SignalsFirst := by
  intro run member positive cb found front ahead ran
  obtain ⟨before, behind⟩ : ∃ before, run.index = before + 1 := ⟨run.index - 1, by omega⟩
  have frame := inv.frame found
  obtain ⟨commands, started, bound⟩ := ran
  obtain ⟨heading, closing, rfl, reads⟩ := inv.reads run member commands started
  obtain ⟨_, wait, second, users, -, -, rfl, count⟩ := reads.waits before behind
  have own : cb.userCount = users.length := by
    rw [frame] at count
    exact Option.some.inj count
  have waited : 0 < run.executed := by
    simp only [List.length_append, List.length_cons, List.length_nil] at bound
    omega
  obtain ⟨partner, there, submission, place, ready⟩ := inv.fronts run member before behind
  refine ⟨partner, there, submission, by omega, ?_⟩
  have follows : before + 1 < frames.length := by
    obtain ⟨inside, -⟩ := List.getElem?_eq_some_iff.mp frame
    omega
  have partnered : fenced.job.cmdBuffers[partner.index]? = some front := by
    rw [place, ← ahead, behind]
    rfl
  exact (inv.signalled_iff there partnered (by omega)).mpr (ready waited)

theorem hostStep (inv : Fenced frames fenced) (clear : fenced.AcceptsClear .hostStep) :
    Fenced frames fenced.hostStep := by
  rw [FencedJob.hostStep]
  cases pending : fenced.pending with
  | nil => exact inv
  | cons step rest =>
    cases step with
    | waitForCompletion =>
      simp only
      split
      · exact inv.patch pending rfl fun cb laidOut => laidOut.waitForCompletion
      · exact inv
    | addWaitAtHead waitFor => exact inv.patch pending rfl fun cb laidOut => laidOut.addWaitAtHead waitFor
    | addSelfSignalAtTail => exact inv.patch pending rfl fun cb laidOut => laidOut.addSelfSignalAtTail
    | setInOrder =>
      have fewer : rest.filterMap HostStep.request = fenced.pending.filterMap HostStep.request := by
        rw [pending]
        rfl
      have next := inv.setPending (.inr fewer)
      exact ⟨next.same, next.distinct, next.laidOut, next.reads, next.unread, next.gated, next.fronts, next.queued⟩
    | useBusyWait index => exact inv.patch pending rfl fun cb laidOut => laidOut.useBusyWait
    | commandQueueSubmit index isTurbo =>
      apply inv.accept pending
      intro cb found follows
      have clear : fenced.FenceClear index := by simpa only [FencedJob.AcceptsClear, pending] using clear
      obtain ⟨word, signalled⟩ := clear (by rw [inv.length]; exact follows) cb found
      refine ⟨word, fun run member here => ?_⟩
      subst here
      exact (inv.signalled_iff member found follows).mp (signalled run member rfl)

theorem hostBusy (inv : Fenced frames fenced) : Fenced frames fenced.hostBusy := by
  rw [FencedJob.hostBusy]
  split
  · rename_i index isTurbo rest pending
    apply inv.setPending
    right
    rw [List.filterMap_append, requested_requestSteps, pending]
    rfl
  · exact inv

theorem storeLast (inv : Fenced frames fenced) (value : Nat) :
    Fenced frames (fenced.setBuffers
      (fenced.job.cmdBuffers.modify (fenced.job.cmdBuffers.length - 1) (·.setFenceValue value))) := by
  cases found : fenced.job.cmdBuffers[fenced.job.cmdBuffers.length - 1]? with
  | none =>
    rw [List.modify_eq_set_getElem?, found]
    exact inv
  | some cb =>
    rw [List.modify_eq_set_getElem?, found]
    apply inv.setBuffer found
    apply (inv.laidOut _ cb found).setFenceValue
    intro follows
    rw [← inv.length] at follows
    omega

/-- One step of the host or of the device. -/
theorem step (inv : Fenced frames fenced) {action : FencedAction} (clear : fenced.AcceptsClear action) :
    Fenced frames (fenced.step action) := by
  cases action with
  | hostStep => exact inv.hostStep clear
  | hostBusy => exact inv.hostBusy
  | hostStop => exact inv.setPending (.inl rfl)
  | start position => exact inv.start position
  | execute position => exact inv.execute position
  | storeLast value => exact inv.storeLast value

end Fenced

/-- Nothing but the hardware and the filling of a NOP is read of the context. -/
theorem VPUCommandBuffer.Layout.of_fixed {ctx next : VPUDeviceContext} {cb : VPUCommandBuffer} {cmds : List VPUCommand}
    (layout : Layout ctx cb cmds head signalled) (same : next.fixed = ctx.fixed) : Layout next cb cmds head signalled := by
  have stays : ∀ other : VPUDeviceContext, Layout other cb cmds head signalled = Layout other.fixed cb cmds head signalled := by
    intro other
    apply propext
    constructor
    · intro known
      exact ⟨known.mapped, known.allocSize, known.positive, known.size, known.entry, known.sync, known.streams,
        known.closing, known.blocks, known.unused⟩
    · intro known
      exact ⟨known.mapped, known.allocSize, known.positive, known.size, known.entry, known.sync, known.streams,
        known.closing, known.blocks, known.unused⟩
  rw [VPUDeviceContext.fixed_congr same (fun other => Layout other cb cmds head signalled) stays]
  exact layout

namespace VPUJob

/-- The command buffers that the loop of `closeCommands` makes before it ends or fails: each waits for the one in
front of it, and each that another one follows signals. -/
theorem createCommandBuffers_layouts {shares : List (List VPUCommand)} {event : Option VPUBufferObject}
    (room : ∀ bo ∈ event, fenceValueOffset < bo.allocSize) {index : Nat} {cb : VPUCommandBuffer}
    (found : (createCommandBuffers ctx position shares event).2.1[index]? = some cb) :
    ∃ cmds ∈ shares, ∃ head signalled, Layout ctx cb cmds head signalled ∧ cmds.length = cb.userCount ∧
      (index + 1 < (createCommandBuffers ctx position shares event).2.1.length → signalled = true) ∧
      (index = 0 → head = event.map (·, false)) ∧
      ∀ before, index = before + 1 → ∃ previous,
        (createCommandBuffers ctx position shares event).2.1[before]? = some previous ∧
          head = some (previous.buffer, false) := by
  induction shares generalizing ctx position event index with
  | nil => cases found
  | cons share others ih =>
    rcases answer : allocateCommandBuffer ctx position share with ⟨none | created, patched, next⟩
    · rw [createCommandBuffers_failed others event (by rw [answer])] at found
      cases found
    · rw [createCommandBuffers_round others answer event] at found ⊢
      obtain ⟨-, layout, -, next_eq, frame, -⟩ := allocateCommandBuffer_some answer
      have linked := layout.linked room (decide (others = []))
      have kept := created.linked_patched ctx event (decide (others = []))
      generalize created.linked ctx event (decide (others = [])) = signalling at found linked kept
      have empty : others = [] → (createCommandBuffers next (position + share.length) others
          (if others = [] then event else some created.buffer)).2.1 = [] := by
        rintro rfl
        rfl
      generalize following_eq : (if others = [] then event else some created.buffer) = following at found ih empty
      cases index with
      | zero =>
        obtain rfl := Option.some.inj found
        refine ⟨share, List.mem_cons_self, _, _, linked, ?_, ?_, fun _ => rfl,
          fun before place => absurd place.symm (Nat.succ_ne_zero before)⟩
        · rw [VPUCommandBuffer.userCount, kept.commandsBegin, kept.commandsEnd, frame.commandsBegin, frame.commandsEnd]
          exact (Nat.add_sub_cancel_left position share.length).symm
        · intro more
          simp only [Bool.not_eq_true', decide_eq_false_iff_not]
          intro last
          simp only [List.length_cons, empty last, List.length_nil] at more
          omega
      | succ index =>
        have rest : (createCommandBuffers next (position + share.length) others following).2.1[index]? = some cb := found
        have more : others ≠ [] := by
          intro last
          rw [empty last] at rest
          cases rest
        rw [if_neg more] at following_eq
        have fits : ∀ bo ∈ following, fenceValueOffset < bo.allocSize := by
          have start := descriptorStart_le share
          have size := layout.allocSize
          simp only [commandListOffset] at start
          intro bo member
          rw [← following_eq] at member
          obtain rfl := Option.some.inj member
          simp only [fenceValueOffset]
          omega
        obtain ⟨cmds, member, head, signalled, laid, count, signals, first, later⟩ := ih fits rest
        refine ⟨cmds, List.mem_cons_of_mem share member, head, signalled, laid.of_fixed ?_, count, ?_,
          fun front => absurd front (Nat.succ_ne_zero index), ?_⟩
        · rw [next_eq]
          rfl
        · intro behind
          exact signals (by simpa using behind)
        · intro before place
          obtain rfl : index = before := by omega
          cases index with
          | zero =>
            refine ⟨signalling, rfl, ?_⟩
            rw [first rfl, ← following_eq, kept.buffer]
            rfl
          | succ before => exact later before rfl

/-- A command buffer of a job that has just been closed, or that failed to: the commands in it are those of the job, but
for the addresses of their descriptors. -/
structure ClosedBuffer (ctx : VPUDeviceContext) (closed : VPUJob) (index : Nat) (cb : VPUCommandBuffer)
    (cmds : List VPUCommand) (head : Option (VPUBufferObject × Bool)) (signalled : Bool) : Prop where
  layout : Layout ctx cb cmds head signalled
  count : cmds.length = cb.userCount
  listed : ∀ cmd ∈ cmds, ∃ patched ∈ closed.commands,
    decodeFence patched.getCommitStream = decodeFence cmd.getCommitStream
  signals : index + 1 < closed.cmdBuffers.length → signalled = true
  first : index = 0 → head = none
  behind : ∀ before, index = before + 1 → ∃ previous, closed.cmdBuffers[before]? = some previous ∧
    head = some (previous.buffer, false)

theorem closeCommands_buffers {job : VPUJob} {ctx : VPUDeviceContext} (opened : job.closed = false)
    (clean : job.cmdBuffers = []) {index : Nat} {cb : VPUCommandBuffer}
    (found : (job.closeCommands ctx).2.1.cmdBuffers[index]? = some cb) :
    ∃ cmds head signalled, ClosedBuffer ctx (job.closeCommands ctx).2.1 index cb cmds head signalled := by
  rw [closeCommands_clean opened clean] at found ⊢
  have readdressed := createCommandBuffers_readdressed ctx 0 (scheduleAll job.commands) none
  have room : ∀ bo ∈ (none : Option VPUBufferObject), fenceValueOffset < bo.allocSize := fun bo absent => by cases absent
  obtain ⟨cmds, member, head, signalled, layout, count, signals, first, behind⟩ := createCommandBuffers_layouts room found
  refine ⟨cmds, head, signalled, layout, count, fun cmd present => ?_, signals, first, behind⟩
  obtain ⟨patched, there, same⟩ := exists_image readdressed cmd (List.mem_flatten.mpr ⟨cmds, member, present⟩)
  exact ⟨patched, there, same.decodeFence⟩

end VPUJob

/-- A job that has just been closed, or that failed to. -/
theorem fenced_closed {job : VPUJob} {ctx : VPUDeviceContext} (opened : job.closed = false) (clean : job.cmdBuffers = [])
    (placed : (FencedJob.closed (job.closeCommands ctx).2.1 (job.closeCommands ctx).2.2).Placed) :
    ∃ frames, Fenced frames (FencedJob.closed (job.closeCommands ctx).2.1 (job.closeCommands ctx).2.2) := by
  have buffers := fun index cb => @VPUJob.closeCommands_buffers job ctx opened clean index cb
  have fixed := job.closeCommands_fixed ctx
  generalize job.closeCommands ctx = result at *
  obtain ⟨finished, closed, next⟩ := result
  obtain ⟨apart, foreign⟩ := placed
  simp only [FencedJob.closed] at buffers fixed apart foreign ⊢
  refine ⟨closed.cmdBuffers.map VPUCommandBuffer.frame, rfl, ?_, ?_, nofun, nofun, fun _ _ _ _ => gated_nil, nofun, ?_⟩
  · rw [List.map_map]
    exact apart
  · intro index cb found
    obtain ⟨cmds, head, signalled, buffer⟩ := buffers index cb found
    refine ⟨cmds, head, signalled, buffer.layout.of_fixed fixed, buffer.count, ?_, ?_, ?_⟩
    · intro cmd present fence decoded _ ⟨frame, listed, address⟩
      obtain ⟨other, listed', rfl⟩ := List.mem_map.mp listed
      obtain ⟨patched, there, same⟩ := buffer.listed cmd present
      exact absurd address (foreign patched there fence (same.trans decoded) other listed')
    · intro follows
      rw [List.length_map] at follows
      exact buffer.signals follows
    · intro before place
      obtain ⟨previous, there, waits⟩ := buffer.behind before place
      refine ⟨previous.buffer, waits, ?_⟩
      rw [List.getElem?_map, there]
      rfl
  · intro first index last split
    exact absurd split.symm (List.append_ne_nil_of_right_ne_nil first (List.cons_ne_nil index last))

namespace JobHistory

def generations (history : JobHistory) : List FencedJob := history.earlier ++ [history.current]

/-- What the kernel promises when the command buffers are made anew. -/
def Placed (history : JobHistory) (action : JobAction) : Prop := (history.step action).current.Placed

def AcceptsClear (history : JobHistory) : JobAction → Prop
  | .submit _ => True
  | .act action => history.current.AcceptsClear action
  | .actEarlier position action => ∀ fenced ∈ history.earlier[position]?, fenced.AcceptsClear action

/-- The invariant of all command buffers that the job has had. -/
def AllFenced (history : JobHistory) : Prop := ∀ fenced ∈ history.generations, ∃ frames, Fenced frames fenced

theorem AllFenced.replace {history : JobHistory} (all : history.AllFenced) {fenced : FencedJob}
    (inv : ∃ frames, Fenced frames fenced) : AllFenced { history with current := fenced } := by
  intro other member
  rcases List.mem_append.mp member with before | here
  · exact all other (List.mem_append_left _ before)
  · rw [List.mem_singleton.mp here]
    exact inv

theorem AllFenced.submit {history : JobHistory} (all : history.AllFenced) {queue : VPUDeviceQueueManaged}
    (placed : (history.submit queue).current.Placed) : (history.submit queue).AllFenced := by
  obtain ⟨frames, inv⟩ := all history.current (List.mem_append_right _ (List.mem_singleton_self _))
  rw [JobHistory.submit] at placed ⊢
  split
  · exact all
  · rename_i idle
    rw [if_neg idle] at placed
    split
    · exact all.replace ⟨frames, inv.submit queue⟩
    · rename_i chained
      rw [if_neg chained] at placed
      split
      · exact all
      · rename_i closed
        rw [if_neg closed] at placed
        rw [VPUJob.stripInOrder_closed (by simpa using closed)] at placed ⊢
        generalize job_eq : { history.current.job with cmdBuffers := [], hasInOrderWorkload := false, closed := false } =
          job at placed ⊢
        have opened : job.closed = false := by rw [← job_eq]
        have clean : job.cmdBuffers = [] := by rw [← job_eq]
        have fresh := @fenced_closed job history.current.ctx opened clean
        generalize job.closeCommands history.current.ctx = answer at placed fresh ⊢
        obtain ⟨success, stripped, next⟩ := answer
        intro fenced member
        rcases List.mem_append.mp member with before | here
        · exact all fenced before
        · rw [List.mem_singleton.mp here]
          cases success with
          | false => exact fresh placed
          | true =>
            obtain ⟨frames', inv'⟩ := fresh placed
            exact ⟨frames', inv'.submit queue⟩

theorem AllFenced.step {history : JobHistory} (all : history.AllFenced) {action : JobAction}
    (placed : history.Placed action) (clear : history.AcceptsClear action) : (history.step action).AllFenced := by
  cases action with
  | submit queue => exact all.submit placed
  | act action =>
    obtain ⟨frames, inv⟩ := all history.current (List.mem_append_right _ (List.mem_singleton_self _))
    exact all.replace ⟨frames, inv.step clear⟩
  | actEarlier position action =>
    intro fenced member
    rcases List.mem_append.mp member with before | here
    · obtain ⟨place, found⟩ := List.mem_iff_getElem?.mp before
      have found : (history.earlier.modify position (·.step action))[place]? = some fenced := found
      rw [List.getElem?_modify] at found
      obtain ⟨old, there, changed⟩ := Option.map_eq_some_iff.mp found
      obtain ⟨frames, inv⟩ := all old (List.mem_append_left _ (List.mem_of_getElem? there))
      split at changed
      · rename_i same
        subst same
        exact ⟨frames, changed ▸ inv.step (clear old there)⟩
      · exact ⟨frames, changed ▸ inv⟩
    · exact all fenced (List.mem_append_right _ here)

end JobHistory

/-- In a run in which every command buffer is accepted while its fence is clear, user commands wait for the signal of
their own submission, however often and on whatever queues the job is submitted. -/
theorem fences_order_submissions {job : VPUJob} {ctx : VPUDeviceContext} (opened : job.closed = false)
    (clean : job.cmdBuffers = []) (placed : (JobHistory.closed job ctx).current.Placed) {actions : List JobAction}
    (kernel : Guarded JobHistory.step JobHistory.Placed (JobHistory.closed job ctx) actions)
    (clear : Guarded JobHistory.step JobHistory.AcceptsClear (JobHistory.closed job ctx) actions) :
    ∀ fenced ∈ (runFrom JobHistory.step (JobHistory.closed job ctx) actions).generations, fenced.SignalsFirst := by
  have initial : (JobHistory.closed job ctx).AllFenced := by
    intro fenced member
    rw [List.mem_singleton.mp member]
    exact fenced_closed opened clean placed
  have keeps : ∀ (history : JobHistory) action, history.AllFenced →
      history.Placed action ∧ history.AcceptsClear action → (history.step action).AllFenced :=
    fun _ _ all both => all.step both.1 both.2
  have all := guarded_invariant keeps initial (guarded_and.mpr ⟨kernel, clear⟩)
  intro fenced member
  obtain ⟨frames, inv⟩ := all fenced member
  exact inv.signalsFirst

namespace JobHistory

instance (history : JobHistory) (action : JobAction) : Decidable (history.Placed action) := by
  unfold Placed
  infer_instance

instance (fenced : FencedJob) (action : FencedAction) : Decidable (fenced.AcceptsClear action) := by
  unfold FencedJob.AcceptsClear
  split <;> infer_instance

instance (history : JobHistory) (action : JobAction) : Decidable (history.AcceptsClear action) := by
  cases action <;> (unfold AcceptsClear; infer_instance)

end JobHistory

/-- A queue that is not in-order. -/
def unorderedQueue (isTurbo : Bool) : VPUDeviceQueueManaged := ⟨1, 1, 1, false, isTurbo, none⟩

/-- The host submits a job of two command buffers; a step that is not needed does nothing. -/
def submitTwo (isTurbo : Bool) : List JobAction :=
  .submit (unorderedQueue isTurbo) :: List.replicate 4 (.act .hostStep)

/-- The device starts a run and executes commands of it. -/
def executeCommands (run count : Nat) : List JobAction :=
  .act (.start run) :: List.replicate count (.act (.execute run))

/-- Both command buffers once, and the second submission behind that. -/
def submitTwice (isTurbo : Bool) : List JobAction :=
  submitTwo isTurbo ++ executeCommands 0 2 ++ executeCommands 1 4 ++ submitTwo isTurbo

/-- With busy waiting the second command buffer does not get ahead of the first one. -/
theorem fences_order_submissions_turbo :
    Guarded JobHistory.step JobHistory.AcceptsClear (JobHistory.closed VPUJob.splitJob (grantingContext []))
        (submitTwice true ++ executeCommands 3 3 ++ executeCommands 2 2 ++ executeCommands 3 4) ∧
      ∀ fenced ∈ (runFrom JobHistory.step (JobHistory.closed VPUJob.splitJob (grantingContext []))
        (submitTwice true ++ executeCommands 3 3 ++ executeCommands 2 2 ++ executeCommands 3 4)).generations,
          fenced.SignalsFirst :=
  have clear : Guarded JobHistory.step JobHistory.AcceptsClear (JobHistory.closed VPUJob.splitJob (grantingContext []))
      (submitTwice true ++ executeCommands 3 3 ++ executeCommands 2 2 ++ executeCommands 3 4) := by decide +kernel
  ⟨clear, fences_order_submissions rfl rfl (by decide +kernel) (by decide +kernel) clear⟩

/-- Without it, the second command buffer of the second submission passes on the signal of the first one. -/
theorem stale_signal_passes :
    Guarded JobHistory.step JobHistory.Placed (JobHistory.closed VPUJob.splitJob (grantingContext []))
        (submitTwice false ++ executeCommands 3 3) ∧
      ¬ ∀ fenced ∈ (runFrom JobHistory.step (JobHistory.closed VPUJob.splitJob (grantingContext []))
        (submitTwice false ++ executeCommands 3 3)).generations, fenced.SignalsFirst := by
  decide +kernel

end NpuDriver
