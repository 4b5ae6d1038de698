import NpuDriver.Library.Runs
import NpuDriver.Device.InOrderQueue
import NpuDriver.Proof.TrackedJobs

/-! The steps of a submission, with none of the device between them, do what `submit` does: those of a job alone, and
those of the job under way on an in-order queue. -/

namespace NpuDriver

open Library

def FencedAction.isHost (action : FencedAction) : Prop := action = .hostStep ∨ action = .hostBusy

namespace FencedJob

def ahead (fenced : FencedJob) (cmdBuffers : List VPUCommandBuffer) (pending : List HostStep) : FencedJob :=
  { fenced.setBuffers cmdBuffers with pending := pending }

/-- The host alone leads from one state to another. -/
def HostLeads (first last : FencedJob) : Prop :=
  ∃ actions : List FencedAction, (∀ action ∈ actions, action.isHost) ∧ runFrom FencedJob.step first actions = last

theorem HostLeads.refl (fenced : FencedJob) : fenced.HostLeads fenced := ⟨[], nofun, rfl⟩

theorem HostLeads.trans {first second third : FencedJob} (front : first.HostLeads second)
    (back : second.HostLeads third) : first.HostLeads third := by
  obtain ⟨actions, hosts, rfl⟩ := front
  obtain ⟨others, hosts', rfl⟩ := back
  refine ⟨actions ++ others, fun action member => ?_, runFrom_append actions others⟩
  exact (List.mem_append.mp member).elim (hosts action) (hosts' action)

theorem hostLeads_step {fenced next : FencedJob} (step : fenced.hostStep = next) : fenced.HostLeads next :=
  ⟨[.hostStep], fun _ member => .inl (List.mem_singleton.mp member), step⟩

theorem hostLeads_busy {fenced next : FencedJob} (busy : fenced.hostBusy = next) : fenced.HostLeads next :=
  ⟨[.hostBusy], fun _ member => .inr (List.mem_singleton.mp member), busy⟩

theorem patch_true {fenced : FencedJob} {done rest : List VPUCommandBuffer} {cb : VPUCommandBuffer}
    (buffers : fenced.job.cmdBuffers = done ++ cb :: rest) (change : VPUCommandBuffer → Bool × VPUCommandBuffer)
    {patched : VPUCommandBuffer} (success : change cb = (true, patched)) (later : List HostStep) :
    fenced.patch done.length change later = fenced.ahead (done ++ patched :: rest) later := by
  have found : fenced.job.cmdBuffers[done.length]? = some cb := by
    rw [buffers, List.getElem?_append_right (Nat.le_refl _), Nat.sub_self]
    rfl
  have replaced : fenced.job.cmdBuffers.set done.length patched = done ++ patched :: rest := by
    rw [buffers, List.set_append_right _ _ (Nat.le_refl _), Nat.sub_self]
    rfl
  rw [patch, found]
  simp only [success, replaced]
  rfl

variable {queue : VPUDeviceQueueManaged} {fenced : FencedJob} {done rest : List VPUCommandBuffer}
  {cb : VPUCommandBuffer} {later : List HostStep}

/-- Preparing a request. -/
theorem hostLeads_prepared (ctx : VPUDeviceContext) (accepted : Bool) :
    (fenced.ahead (done ++ cb :: rest) (requestSteps queue.isTurbo done.length ++ later)).HostLeads
      (fenced.ahead (done ++ (queue.submitCommandBuffer cb ctx accepted).1 :: rest)
        (.commandQueueSubmit done.length queue.isTurbo :: later)) := by
  rw [VPUDeviceQueueManaged.submitCommandBuffer]
  cases turbo : queue.isTurbo with
  | false => exact HostLeads.refl _
  | true =>
    apply hostLeads_step
    exact patch_true rfl (fun cb => (true, cb.useBusyWait)) rfl _

theorem hostLeads_again (pending : fenced.pending = .commandQueueSubmit done.length queue.isTurbo :: later) :
    fenced.HostLeads { fenced with pending := requestSteps queue.isTurbo done.length ++ later } := by
  apply hostLeads_busy
  rw [hostBusy, pending]

theorem hostLeads_submitBusy (attempts : Nat) (ctx : VPUDeviceContext) :
    (fenced.ahead (done ++ cb :: rest) (requestSteps queue.isTurbo done.length ++ later)).HostLeads
      (fenced.ahead (done ++ (queue.submitBusy attempts cb ctx).1 :: rest)
        (requestSteps queue.isTurbo done.length ++ later)) := by
  induction attempts generalizing cb ctx with
  | zero => exact HostLeads.refl _
  | succ attempts ih =>
    have tried := @hostLeads_prepared queue fenced done rest cb later ctx false
    exact (tried.trans (hostLeads_again rfl)).trans (ih (queue.submitCommandBuffer cb ctx false).2)

/-- One command buffer, whatever the number of busy replies. -/
theorem hostLeads_accepted {ctx : VPUDeviceContext} (accepted : (queue.submitUntilReply cb ctx).1 = true) :
    (fenced.ahead (done ++ cb :: rest) (requestSteps queue.isTurbo done.length ++ later)).HostLeads
      { fenced.ahead (done ++ (queue.submitUntilReply cb ctx).2.1 :: rest) later with
        runs := fenced.runs ++ [.accepted fenced.submissions done.length] } := by
  have busy := @hostLeads_submitBusy queue fenced done rest cb later
    (ctx.drvApi.commandQueueSubmit ctx.calls.length).busyReplies ctx
  rw [VPUDeviceQueueManaged.submitUntilReply] at accepted ⊢
  simp only at accepted ⊢
  generalize queue.submitBusy (ctx.drvApi.commandQueueSubmit ctx.calls.length).busyReplies cb ctx = tried at busy accepted ⊢
  split at accepted
  · exact (busy.trans (hostLeads_prepared tried.2 true)).trans (hostLeads_step rfl)
  · cases accepted
  · cases accepted

/-- All command buffers, one after the other. -/
theorem hostLeads_submitEach {cmdBufs : List VPUCommandBuffer} {ctx : VPUDeviceContext}
    (accepted : (queue.submitEach ctx cmdBufs).1 = true) :
    (fenced.ahead (done ++ cmdBufs)
        ((List.range' done.length cmdBufs.length).flatMap (requestSteps queue.isTurbo))).HostLeads
      { fenced.ahead (done ++ (queue.submitEach ctx cmdBufs).2.1) [] with
        runs := fenced.runs ++ (List.range' done.length cmdBufs.length).map (.accepted fenced.submissions) } := by
  induction cmdBufs generalizing fenced done ctx with
  | nil => simpa [VPUDeviceQueueManaged.submitEach, ahead, setBuffers] using HostLeads.refl _
  | cons cb rest ih =>
    rw [VPUDeviceQueueManaged.submitEach] at accepted ⊢
    have first := @hostLeads_accepted queue fenced done rest cb
      ((List.range' (done.length + 1) rest.length).flatMap (requestSteps queue.isTurbo)) ctx
    generalize queue.submitUntilReply cb ctx = answer at accepted first ⊢
    obtain ⟨success, submitted, next⟩ := answer
    cases success with
    | false => cases accepted
    | true =>
      simp only at accepted first ⊢
      have others := @ih { fenced with runs := fenced.runs ++ [.accepted fenced.submissions done.length] } (done ++ [submitted]) next
      generalize queue.submitEach next rest = remaining at accepted others ⊢
      obtain ⟨whole, buffers, final⟩ := remaining
      simp only at accepted others ⊢
      have whole := (first trivial).trans (by simpa [ahead, setBuffers] using others accepted)
      rw [List.length_cons, List.range'_succ, List.flatMap_cons, List.map_cons]
      simpa [ahead, setBuffers] using whole

/-- `makeInOrder` of a job that need not wait for its own first command buffer. -/
theorem hostLeads_makeInOrder {waitFor : Option VPUBufferObject} {later : List HostStep}
    (other : ∀ front ∈ fenced.job.cmdBuffers.head?, waitFor.map VPUBufferObject.id ≠ some front.buffer.id)
    (success : (fenced.job.makeInOrder waitFor fenced.ctx).success = true) :
    ({ fenced with pending := orderSteps fenced.job waitFor ++ later } : FencedJob).HostLeads
      { fenced with job := (fenced.job.makeInOrder waitFor fenced.ctx).job, pending := later } := by
  rw [VPUJob.makeInOrder] at success ⊢
  rw [orderSteps]
  cases buffers : fenced.job.cmdBuffers with
  | nil =>
    rw [buffers] at success
    cases success
  | cons front rest =>
    have apart := other front (by rw [buffers]; rfl)
    rw [buffers] at success
    simp only [if_neg apart] at success ⊢
    rw [VPUJob.chain] at success ⊢
    have waits : ∀ patched, front.addWaitAtHead fenced.ctx waitFor true = (true, patched) →
        ({ fenced with pending := [.addWaitAtHead waitFor, .addSelfSignalAtTail, .setInOrder] ++ later } :
          FencedJob).HostLeads (fenced.ahead (patched :: rest) ([.addSelfSignalAtTail, .setInOrder] ++ later)) := by
      intro patched answer
      apply hostLeads_step
      exact @patch_true { fenced with pending := [.addWaitAtHead waitFor, .addSelfSignalAtTail, .setInOrder] ++ later }
        [] rest front buffers _ patched answer _
    generalize front.addWaitAtHead fenced.ctx waitFor true = answer at success waits ⊢
    obtain ⟨waiting, patched⟩ := answer
    cases waiting with
    | false => cases success
    | true =>
      simp only at success ⊢
      have split := List.dropLast_append_getLast (List.cons_ne_nil patched rest)
      have signals : ∀ signalling, ((patched :: rest).getLast (List.cons_ne_nil patched rest)).addSelfSignalAtTail =
          (true, signalling) → (fenced.ahead (patched :: rest) ([.addSelfSignalAtTail, .setInOrder] ++ later)).HostLeads
            (fenced.ahead ((patched :: rest).dropLast ++ [signalling]) ([.setInOrder] ++ later)) := by
        intro signalling answer
        apply hostLeads_step
        have place : (patched :: rest).dropLast.length = (patched :: rest).length - 1 := List.length_dropLast
        have done := @patch_true (fenced.ahead (patched :: rest) ([.addSelfSignalAtTail, .setInOrder] ++ later))
          (patched :: rest).dropLast [] _ split.symm VPUCommandBuffer.addSelfSignalAtTail signalling answer
          ([.setInOrder] ++ later)
        rw [place] at done
        exact done
      generalize ((patched :: rest).getLast (List.cons_ne_nil patched rest)).addSelfSignalAtTail = signal at success signals ⊢
      obtain ⟨signalled, signalling⟩ := signal
      cases signalled with
      | false => cases success
      | true => exact ((waits patched rfl).trans (signals signalling rfl)).trans (hostLeads_step rfl)

/-- A job that need not be taken out of an in-order chain, and whose first command buffer is not the last one in the
chain of the queue. -/
structure Proceeds (queue : VPUDeviceQueueManaged) (job : VPUJob) : Prop where
  kept : queue.isInOrder = true ∨ job.hasInOrderWorkload = false
  other : ∀ front ∈ job.cmdBuffers.head?, queue.lastWaitBo.map VPUBufferObject.id ≠ some front.buffer.id

theorem hostLeads_prepare (proceeds : Proceeds queue fenced.job)
    (success : (queue.prepare fenced.job fenced.ctx).success = true) :
    ({ fenced with pending := submitSteps queue fenced.job } : FencedJob).HostLeads
      { fenced with
        job := (queue.prepare fenced.job fenced.ctx).job
        pending := (List.range fenced.job.cmdBuffers.length).flatMap (requestSteps queue.isTurbo) } := by
  rw [VPUDeviceQueueManaged.prepare] at success ⊢
  rw [submitSteps]
  cases inOrder : queue.isInOrder with
  | true =>
    rw [inOrder] at success
    exact hostLeads_makeInOrder proceeds.other success
  | false =>
    have plain : fenced.job.hasInOrderWorkload = false := by simpa [inOrder] using proceeds.kept
    rw [plain]
    exact HostLeads.refl _

/-- The steps of the host end in the job that `submit` makes, with one more run of each command buffer. -/
theorem hostLeads_submit (proceeds : Proceeds queue fenced.job)
    (success : (queue.submit fenced.job fenced.ctx).success = true) :
    (fenced.submit queue).HostLeads
      { fenced with
        job := (queue.submit fenced.job fenced.ctx).job, submissions := fenced.submissions + 1, pending := []
        runs := fenced.runs ++
          (List.range fenced.job.cmdBuffers.length).map (.accepted (fenced.submissions + 1)) } := by
  have prepares := @hostLeads_prepare queue { fenced with submissions := fenced.submissions + 1 } proceeds
  have buffers := queue.prepare_buffers fenced.job fenced.ctx proceeds.kept
  have turbo : (queue.prepare fenced.job fenced.ctx).queue.isTurbo = queue.isTurbo := by
    rw [VPUDeviceQueueManaged.prepare]
    split
    · rfl
    · split <;> rfl
  have count : (queue.prepare fenced.job fenced.ctx).job.cmdBuffers.length = fenced.job.cmdBuffers.length := by
    simpa [VPUJob.buffers] using congrArg List.length buffers
  rw [VPUDeviceQueueManaged.submit] at success ⊢
  simp only at prepares success ⊢
  generalize queue.prepare fenced.job fenced.ctx = prepared at prepares success turbo count ⊢
  cases ready : prepared.success with
  | false =>
    simp only [ready, Bool.not_false, ↓reduceIte] at success
    cases success
  | true =>
    simp only [ready, Bool.not_true, Bool.false_eq_true, ↓reduceIte] at success ⊢
    rw [VPUDeviceQueueManaged.submitWithWait] at success ⊢
    split at success
    · cases success
    · rename_i some
      rw [if_neg some]
      have each := @hostLeads_submitEach prepared.queue
        { fenced with job := prepared.job, submissions := fenced.submissions + 1 } [] prepared.job.cmdBuffers prepared.ctx
      generalize prepared.queue.submitEach prepared.ctx prepared.job.cmdBuffers = answer at success each ⊢
      obtain ⟨accepted, cmdBuffers, final⟩ := answer
      rw [turbo, count] at each
      rw [List.range_eq_range'] at prepares ⊢
      exact (prepares ready).trans (each success)

end FencedJob

/-- A run as one of its job alone, whose submissions are counted from one on. -/
def QueueRun.ofJob (run : QueueRun) : BufferRun := { run.toBufferRun with submission := run.submission + 1 }

namespace InOrderQueue

/-- The job under way, with the runs of its command buffers. -/
def underWay (state : InOrderQueue) (job : VPUJob) : FencedJob where
  ctx := state.ctx
  job := job
  submissions := state.submitted.length
  pending := state.pending
  runs := (state.runs.filter fun run => run.job = state.currentJob).map QueueRun.ofJob

variable {state : InOrderQueue} {job : VPUJob}

/-- A patch in the queue is one in the job under way. -/
theorem patch_underWay (held : state.jobs[state.currentJob]? = some job) (index : Nat)
    (change : VPUCommandBuffer → Bool × VPUCommandBuffer) (rest : List HostStep) :
    ∃ next, (state.patch ⟨state.currentJob, index⟩ change rest).jobs[state.currentJob]? = some next ∧
      (state.patch ⟨state.currentJob, index⟩ change rest).underWay next =
        (state.underWay job).patch index change rest := by
  have here : state.bufferAt ⟨state.currentJob, index⟩ = job.cmdBuffers[index]? := by
    rw [bufferAt, held]
    rfl
  have modified : ∀ cb, (state.setBuffer ⟨state.currentJob, index⟩ cb).jobs[state.currentJob]? =
      some { job with cmdBuffers := job.cmdBuffers.set index cb } := by
    intro cb
    rw [setBuffer, modifyJob, List.getElem?_modify_eq, held]
    rfl
  have own : (state.underWay job).job.cmdBuffers[index]? = job.cmdBuffers[index]? := rfl
  rw [patch, FencedJob.patch, here, own]
  cases job.cmdBuffers[index]? with
  | none => exact ⟨job, held, rfl⟩
  | some cb =>
    simp only
    rcases change cb with ⟨success, patched⟩
    cases success with
    | false => exact ⟨_, modified patched, rfl⟩
    | true => exact ⟨_, modified patched, rfl⟩

/-- A step of the host in the queue is one in the job under way. -/
theorem hostStep_underWay (begun : state.submitted ≠ []) (held : state.jobs[state.currentJob]? = some job) :
    ∃ next, state.hostStep.jobs[state.currentJob]? = some next ∧
      state.hostStep.underWay next = (state.underWay job).hostStep := by
  have count : state.count state.currentJob = job.cmdBuffers.length := by
    rw [InOrderQueue.count, held]
    rfl
  have pending : (state.underWay job).pending = state.pending := rfl
  rw [hostStep, FencedJob.hostStep, pending]
  rcases state.pending with _ | ⟨first, rest⟩
  · exact ⟨job, held, rfl⟩
  · cases first with
    | waitForCompletion =>
      have seen : (state.runs.all fun run => run.slot ≠ state.front || run.finished) =
          (state.underWay job).runs.all fun run => run.index ≠ 0 || run.finished := by
        rw [underWay, List.all_map, List.all_filter]
        congr
        funext run
        have either : run.slot = state.front ↔ run.job = state.currentJob ∧ run.index = 0 := by
          rw [QueueRun.slot, front, Slot.mk.injEq]
        by_cases job : run.job = state.currentJob <;> by_cases index : run.index = 0 <;>
          simp [either, job, index, QueueRun.ofJob, BufferRun.finished]
      simp only [seen]
      split
      · exact @patch_underWay (state.setLastWaitBo none) job held 0 _ rest
      · exact ⟨job, held, rfl⟩
    | addWaitAtHead waitFor => exact patch_underWay held 0 _ rest
    | addSelfSignalAtTail =>
      rw [back, count]
      exact patch_underWay held _ _ rest
    | setInOrder =>
      refine ⟨{ job with hasInOrderWorkload := true }, ?_, rfl⟩
      simp only [setLastWaitBo, modifyJob]
      rw [List.getElem?_modify_eq, held]
      rfl
    | useBusyWait index => exact patch_underWay held index _ rest
    | commandQueueSubmit index isTurbo =>
      have number : state.submitted.length - 1 + 1 = state.submitted.length :=
        Nat.sub_add_cancel (List.length_pos_iff.mpr begun)
      have accepted : (QueueRun.accepted (state.submitted.length - 1) ⟨state.currentJob, index⟩).ofJob =
          .accepted state.submitted.length index := congrArg (BufferRun.accepted · index) number
      have runs : ((state.runs ++ [QueueRun.accepted (state.submitted.length - 1) ⟨state.currentJob, index⟩]).filter
          fun run => run.job = state.currentJob).map QueueRun.ofJob =
          (state.underWay job).runs ++ [.accepted state.submitted.length index] := by
        rw [List.filter_append, List.map_append, List.filter_cons_of_pos (by simp [QueueRun.accepted])]
        exact congrArg (fun run => _ ++ [run]) accepted
      exact ⟨job, held, congrArg (FencedJob.mk state.ctx job state.submitted.length rest) runs⟩

theorem hostBusy_underWay (held : state.jobs[state.currentJob]? = some job) :
    ∃ next, state.hostBusy.jobs[state.currentJob]? = some next ∧
      state.hostBusy.underWay next = (state.underWay job).hostBusy := by
  have pending : (state.underWay job).pending = state.pending := rfl
  rw [hostBusy, FencedJob.hostBusy, pending]
  rcases state.pending with _ | ⟨first, rest⟩
  · exact ⟨job, held, rfl⟩
  · cases first <;> exact ⟨job, held, rfl⟩

theorem patch_submitted (slot : Slot) (change : VPUCommandBuffer → Bool × VPUCommandBuffer) (rest : List HostStep) :
    (state.patch slot change rest).submitted = state.submitted := by
  rw [patch]
  cases state.bufferAt slot with
  | none => rfl
  | some cb =>
    simp only
    rcases change cb with ⟨success, patched⟩
    cases success <;> rfl

theorem hostStep_submitted (state : InOrderQueue) : state.hostStep.submitted = state.submitted := by
  rw [hostStep]
  rcases state.pending with _ | ⟨first, rest⟩
  · rfl
  · cases first with
    | waitForCompletion =>
      simp only
      split
      · exact @patch_submitted (state.setLastWaitBo none) _ _ rest
      · rfl
    | addWaitAtHead waitFor => exact patch_submitted _ _ rest
    | addSelfSignalAtTail => exact patch_submitted _ _ rest
    | setInOrder => rfl
    | useBusyWait index => exact patch_submitted _ _ rest
    | commandQueueSubmit index isTurbo => rfl

theorem hostBusy_submitted (state : InOrderQueue) : state.hostBusy.submitted = state.submitted := by
  rw [hostBusy]
  split <;> rfl

/-- Where the steps of the host lead the job under way, they lead the queue. -/
theorem hostLeads_underWay (begun : state.submitted ≠ []) (held : state.jobs[state.currentJob]? = some job)
    {last : FencedJob} (leads : (state.underWay job).HostLeads last) :
    ∃ actions : List QueueAction, (∀ action ∈ actions, action = .hostStep ∨ action = .hostBusy) ∧
      (runFrom step state actions).submitted = state.submitted ∧
      (runFrom step state actions).jobs[state.currentJob]? = some last.job ∧
      (runFrom step state actions).underWay last.job = last := by
  obtain ⟨actions, hosts, rfl⟩ := leads
  induction actions generalizing state job with
  | nil => exact ⟨[], fun _ member => absurd member List.not_mem_nil, rfl, held, rfl⟩
  | cons action rest ih =>
    have one : ∃ made : QueueAction, (made = .hostStep ∨ made = .hostBusy) ∧
        (state.step made).submitted = state.submitted ∧ ∃ next, (state.step made).jobs[state.currentJob]? = some next ∧
          (state.step made).underWay next = (state.underWay job).step action := by
      rcases hosts action List.mem_cons_self with rfl | rfl
      · exact ⟨.hostStep, .inl rfl, state.hostStep_submitted, hostStep_underWay begun held⟩
      · exact ⟨.hostBusy, .inr rfl, state.hostBusy_submitted, hostBusy_underWay held⟩
    obtain ⟨made, host, submitted, next, found, same⟩ := one
    have current : (state.step made).currentJob = state.currentJob := by rw [currentJob, submitted, currentJob]
    have others := @ih (state.step made) next (submitted ▸ begun) (current ▸ found)
      fun other member => hosts other (List.mem_cons_of_mem action member)
    rw [same, current] at others
    obtain ⟨later, hosts', submitted', there, leads⟩ := others
    refine ⟨made :: later, fun other member => ?_, submitted'.trans submitted, there, leads⟩
    rcases List.mem_cons.mp member with rfl | among
    · exact host
    · exact hosts' other among

/-- The steps of a submission on the queue end in the job that `submit` makes. -/
theorem submit_leads {position : Nat} (idle : state.pending = []) (held : state.jobs[position]? = some job)
    (closed : job.closed = true) (filled : job.cmdBuffers ≠ []) (proceeds : FencedJob.Proceeds state.queue job)
    (success : (state.queue.submit job state.ctx).success = true) :
    ∃ actions : List QueueAction, (∀ action ∈ actions, action = .hostStep ∨ action = .hostBusy) ∧
      (runFrom step (state.submit position) actions).submitted = state.submitted ++ [position] ∧
      (runFrom step (state.submit position) actions).jobs[position]? = some (state.queue.submit job state.ctx).job ∧
      (runFrom step (state.submit position) actions).pending = [] := by
  have next : state.submit position = { state with
      submitted := state.submitted ++ [position], pending := submitSteps state.queue job } := by
    rw [submit, idle]
    simp [held, closed, filled]
  have current : (state.submit position).currentJob = position := by
    rw [next, currentJob, List.getLast?_concat]
    rfl
  have begun : (state.submit position).submitted ≠ [] := by
    rw [next]
    exact List.append_ne_nil_of_right_ne_nil _ (List.cons_ne_nil _ _)
  have found : (state.submit position).jobs[(state.submit position).currentJob]? = some job := by
    rw [current, next]
    exact held
  have leads := @FencedJob.hostLeads_submit state.queue
    ⟨state.ctx, job, state.submitted.length, [], (state.runs.filter fun run => run.job = position).map QueueRun.ofJob⟩
    proceeds success
  have same : FencedJob.submit ⟨state.ctx, job, state.submitted.length, [],
      (state.runs.filter fun run => run.job = position).map QueueRun.ofJob⟩ state.queue =
      (state.submit position).underWay job := by
    rw [underWay, current, next, List.length_append]
    rfl
  rw [same] at leads
  obtain ⟨actions, hosts, submitted, there, ends⟩ := hostLeads_underWay begun found leads
  refine ⟨actions, hosts, submitted.trans (by rw [next]), ?_, congrArg FencedJob.pending ends⟩
  rw [current] at there
  exact there

end InOrderQueue

end NpuDriver
