import NpuDriver.Library.Runs
import NpuDriver.Proof.ChainedSubmissions

/-! Each step of a submission on an in-order queue keeps the chain, when it finds what it must find. -/

namespace NpuDriver

open Library VPUCommandBuffer InOrderQueue

namespace InOrderQueue.Numbered

variable {state : InOrderQueue}

theorem submit (numbered : state.Numbered) (idle : state.pending = []) {job : Nat} {closed : VPUJob}
    (held : state.jobs[job]? = some closed) :
    InOrderQueue.Numbered { state with
      submitted := state.submitted ++ [job], pending := submitSteps state.queue closed } := by
  refine ⟨fun _ => List.append_ne_nil_of_right_ne_nil _ (List.cons_ne_nil _ _), ?_, numbered.sorted, ?_⟩
  · intro label member
    have before := numbered.known label member
    obtain ⟨inside, -⟩ := List.getElem?_eq_some_iff.mp before
    rw [List.getElem?_append_left inside]
    exact before
  · intro submission other found index inside
    by_cases before : submission < state.submitted.length
    · rw [List.getElem?_append_left before] at found
      rcases numbered.complete submission other found index inside with accepted | ⟨-, listed⟩
      · exact .inl accepted
      · rw [idle] at listed
        cases listed
    · right
      obtain ⟨below, value⟩ := List.getElem?_eq_some_iff.mp found
      simp only [List.length_append, List.length_singleton] at below ⊢
      obtain rfl : submission = state.submitted.length := by omega
      rw [List.getElem_concat_length rfl] at value
      have count : state.count job = closed.cmdBuffers.length := by
        rw [InOrderQueue.count, held]
        rfl
      refine ⟨rfl, ?_⟩
      rw [requested_submitSteps, List.mem_range, ← count, value]
      exact inside

end InOrderQueue.Numbered

namespace Phase

variable {places : Slot → Option Place} {patches : Patches} {state : InOrderQueue}

theorem idle_of_pending (phase : Phase places patches state) (pending : state.pending = []) : state.Awaits places := by
  cases phase with
  | idle _ awaits => exact awaits
  | finishing inside listed => cases pending.symm.trans listed
  | heading inside listed => cases pending.symm.trans listed
  | tailing inside listed => cases pending.symm.trans listed
  | ordering inside listed => cases pending.symm.trans listed
  | requesting inside listed =>
    rw [pending] at listed
    rcases listed with all | last
    · rw [requests_next inside, requestSteps, List.append_assoc, eq_comm, List.append_eq_nil_iff] at all
      cases all.2
    · cases last

end Phase

namespace InChain

variable {places : Slot → Option Place} {patches : Patches} {state : InOrderQueue}

/-- The buffer of the last run is that of the first command buffer of the job only where it is the same one. -/
theorem front_iff (inv : InChain places patches state) {slot other : Slot} {place : Place} {cb : VPUCommandBuffer}
    (known : places slot = some place) (found : state.bufferAt other = some cb) :
    place.buffer.id = cb.buffer.id ↔ slot = other := by
  constructor
  · exact inv.identified slot other place cb.place known (inv.chained.place found)
  · rintro rfl
    rw [inv.chained.place found] at known
    rw [← Option.some.inj known]
    rfl

/-- A submission begins. -/
theorem submit (inv : InChain places patches state) (job : Nat) : InChain places patches (state.submit job) := by
  rw [InOrderQueue.submit]
  split
  · exact inv
  · rename_i empty
    have pending : state.pending = [] := by simpa using empty
    have awaits := inv.phase.idle_of_pending pending
    split
    · exact inv
    · rename_i closed held
      split
      · exact inv
      · rename_i ready
        obtain ⟨front, others, listed⟩ : ∃ front others, closed.cmdBuffers = front :: others := by
          cases listed : closed.cmdBuffers with
          | nil => simp [listed] at ready
          | cons front others => exact ⟨front, others, rfl⟩
        refine ⟨inv.chained.elsewhere rfl (fun _ => rfl) rfl, inv.identified, inv.inside, inv.inOrder,
          inv.numbered.submit pending held, ?_⟩
        generalize next_eq : ({ state with
          submitted := state.submitted ++ [job], pending := submitSteps state.queue closed } : InOrderQueue) = next
        have current : next.currentJob = job := by
          rw [← next_eq, currentJob, List.getLast?_concat]
          rfl
        have count : next.count next.currentJob = closed.cmdBuffers.length := by
          rw [current, ← next_eq, InOrderQueue.count]
          simp only [held, Option.map_some, Option.getD_some]
        have inside : 0 < next.count next.currentJob := by
          rw [count, listed]
          exact Nat.succ_pos _
        have found : state.bufferAt next.front = some front := by
          rw [InOrderQueue.front, current, bufferAt, held, Option.bind_some, listed]
          rfl
        have steps : next.pending = orderSteps closed state.queue.lastWaitBo ++ next.requests 0 := by
          rw [requests, count, Nat.sub_zero, ← List.range_eq_range', ← next_eq]
          simp only [submitSteps, inv.inOrder, if_true]
        have runs : next.runs = state.runs := by rw [← next_eq]
        rw [orderSteps, listed] at steps
        simp only at steps
        cases awaits with
        | nothing unused waits =>
          have last : next.runs.getLast? = none := by rw [runs, unused, List.getLast?_nil]
          rw [waits] at steps
          refine @Phase.heading places patches next none inside steps ?_ ⟨last ▸ .first, ?_⟩
          · intro slot absent
            cases absent
          · intro run present
            cases last.symm.trans present
        | @last last place present known waits raised =>
          rw [waits, Option.map_some] at steps
          by_cases own : last.slot = next.front
          · rw [if_pos (congrArg some ((inv.front_iff known found).mpr own))] at steps
            exact .finishing inside steps (runs ▸ present) own
          · rw [if_neg fun same => own ((inv.front_iff known found).mp (Option.some.inj same))] at steps
            refine @Phase.heading places patches next (some last.slot) inside ?_ ?_ ⟨?_, ?_⟩
            · rw [Option.bind_some, known]
              exact steps
            · intro slot same
              exact ⟨place, Option.some.inj same ▸ known⟩
            · rw [runs, present]
              exact .behind last own
            · intro other found' _
              rw [runs, present] at found'
              obtain rfl := Option.some.inj found'
              rw [← next_eq]
              exact raised

/-- Once the kernel sees no run of the first command buffer, its fence is cleared. -/
theorem hostStep_finishing (inv : InChain places patches state) {last : QueueRun}
    (inside : 0 < state.count state.currentJob)
    (pending : state.pending = [.waitForCompletion, .addWaitAtHead none, .addSelfSignalAtTail, .setInOrder] ++
      state.requests 0)
    (present : state.runs.getLast? = some last) (own : last.slot = state.front) :
    InChain places patches state.hostStep := by
  have here : ∃ cb, state.bufferAt state.front = some cb := bufferAt_inside inside
  obtain ⟨cb, found⟩ := here
  have same : state.hostStep = if state.runs.all fun run => run.slot ≠ state.front || run.finished then
      (state.setLastWaitBo none).patch state.front (fun front => (true, front.release.resetFenceValue))
        ([.addWaitAtHead none, .addSelfSignalAtTail, .setInOrder] ++ state.requests 0) else state := by
    rw [InOrderQueue.hostStep, pending]
    rfl
  rw [same]
  split
  · rename_i seen
    have finished : last.finished = true := by
      have each := List.all_eq_true.mp seen last (List.mem_of_getLast? present)
      simpa [own] using each
    obtain ⟨inPlace, place, reads⟩ := (inv.chained.laidOut state.front cb found).waitForCompletion
    have low : cb.release.resetFenceValue.fenceValue < STATE_WAIT := by
      have value : cb.release.resetFenceValue.fenceValue = STATE_HOST_RESET :=
        cb.release.setFenceValue_fenceValue (by decide)
      rw [value]
      decide
    have chained := inv.chained.setBuffer found place inPlace id (.inl reads) (.inr ⟨low, ?_⟩)
    · rw [Patches.set_self] at chained
      have cleared : (state.setLastWaitBo none).bufferAt state.front = some cb := found
      rw [patch_sure (fun front => front.release.resetFenceValue) cleared]
      have counts := state.count_setBuffer state.front cb.release.resetFenceValue
      refine ⟨chained.elsewhere rfl (fun _ => rfl) rfl, inv.identified, inv.inside, inv.inOrder,
        inv.numbered.passes pending rfl rfl counts rfl, ?_⟩
      have count := counts state.currentJob
      refine @Phase.heading places patches _ none (Nat.lt_of_lt_of_eq inside count.symm) ?_ ?_ ⟨?_, ?_⟩
      · have requests := fun rest => @setBuffer_requests (state.setLastWaitBo none) state.front
          cb.release.resetFenceValue 0 rest
        exact congrArg (List.append _) (requests _).symm
      · intro slot absent
        cases absent
      · change Linked state.front state.runs.getLast? none
        rw [present]
        exact .again last finished own
      · intro run found' apart
        exact absurd (Option.some.inj (present.symm.trans found') ▸ own) apart
    · intro position prev next foundPrev foundNext _ _ idle
      -- the last run has begun, so all have
      have end_ : state.runs[state.runs.length - 1]? = some last := by rw [← List.getLast?_eq_getElem?, present]
      obtain ⟨below, -⟩ := List.getElem?_eq_some_iff.mp foundNext
      have nothing := inv.chained.untouched foundNext idle (by omega) end_
      exact absurd nothing (Nat.ne_of_gt (inv.chained.executed_of_finished end_ finished))
  · exact inv

/-- The head of the first command buffer waits for the last run, or for none. -/
theorem hostStep_heading (inv : InChain places patches state) {target : Option Slot}
    (inside : 0 < state.count state.currentJob)
    (pending : state.pending = [.addWaitAtHead ((target.bind places).map Place.buffer), .addSelfSignalAtTail,
      .setInOrder] ++ state.requests 0)
    (known : ∀ slot, target = some slot → ∃ place, places slot = some place) (expects : state.Expects state.front target)
    (free : state.HeadFree) :
    InChain places (patches.set state.front target (patches.signals state.front)) state.hostStep := by
  have here : ∃ cb, state.bufferAt state.front = some cb := bufferAt_inside inside
  obtain ⟨cb, found⟩ := here
  have inPlace := inv.chained.laidOut state.front cb found
  have room : ∀ slot place, target = some slot → places slot = some place →
      fenceValueOffset < place.buffer.allocSize := by
    intro slot place _ there
    obtain ⟨held, present, rfl⟩ := inv.chained.buffer there
    exact (inv.chained.laidOut slot held present).room
  obtain ⟨success, headed⟩ := inPlace.addWaitAtHead known room
  have word := inPlace.addWaitAtHead_fenceValue ((target.bind places).map Place.buffer)
  have place := (cb.addWaitAtHead_extends state.ctx ((target.bind places).map Place.buffer) true).place
  have chained := inv.chained.setBuffer found place headed id (.inr free) (.inl word)
  generalize change : cb.addWaitAtHead state.ctx ((target.bind places).map Place.buffer) true = answer at *
  have same : state.hostStep = { state.setBuffer state.front answer.2 with
      pending := [.addSelfSignalAtTail, .setInOrder] ++ state.requests 0 } := by
    rw [InOrderQueue.hostStep, pending]
    exact patch_done found (change.trans (Prod.ext success rfl : answer = (true, answer.2))) _
  rw [same]
  refine inv.patched chained pending rfl (fun before behind => absurd behind.symm (Nat.succ_ne_zero before)) id ?_
  have count := state.count_setBuffer state.front answer.2 state.currentJob
  refine .tailing (Nat.lt_of_lt_of_eq inside count.symm) (congrArg (List.append _) (setBuffer_requests 0 _).symm) ?_
  change InOrderQueue.Expects _ state.front ((patches.set state.front target _).waits state.front)
  rw [Patches.set_waits]
  exact expects.setBuffer found (.inl word) _

/-- The last command buffer signals its fence. -/
theorem hostStep_tailing (inv : InChain places patches state) (inside : 0 < state.count state.currentJob)
    (pending : state.pending = [.addSelfSignalAtTail, .setInOrder] ++ state.requests 0)
    (expects : state.Expects state.front (patches.waits state.front)) :
    InChain places (patches.set state.back (patches.waits state.back) true) state.hostStep := by
  have here : ∃ cb, state.bufferAt state.back = some cb := bufferAt_inside (Nat.sub_one_lt_of_lt inside)
  obtain ⟨cb, found⟩ := here
  obtain ⟨success, tailed, word⟩ := (inv.chained.laidOut state.back cb found).addSelfSignalAtTail
  have reads := inv.chained.reads_signalled found cb.addSelfSignalAtTail_extends.buffer
    fun cmds head layout => layout.addSelfSignalAtTail.2
  have chained := inv.chained.setBuffer found cb.addSelfSignalAtTail_extends.place tailed (fun _ => rfl) reads (.inl word)
  have same : state.hostStep = { state.setBuffer state.back cb.addSelfSignalAtTail.2 with
      pending := [.setInOrder] ++ state.requests 0 } := by
    rw [InOrderQueue.hostStep, pending]
    exact patch_done found (Prod.ext success rfl) _
  rw [same]
  refine inv.patched chained pending rfl (fun _ _ => rfl) (fun _ => rfl) ?_
  have count := state.count_setBuffer state.back cb.addSelfSignalAtTail.2 state.currentJob
  refine .ordering (Nat.lt_of_lt_of_eq inside count.symm) (congrArg (List.append _) (setBuffer_requests 0 _).symm) ?_ ?_
  · change InOrderQueue.Expects _ state.front ((patches.set state.back (patches.waits state.back) true).waits state.front)
    rw [Patches.set_waits_self]
    exact expects.setBuffer found (.inl word) _
  · rw [setBuffer_back, Patches.set_signals]

/-- The next submission is to wait for the last command buffer. -/
theorem hostStep_ordering (inv : InChain places patches state) (inside : 0 < state.count state.currentJob)
    (pending : state.pending = [.setInOrder] ++ state.requests 0)
    (expects : state.Expects state.front (patches.waits state.front)) (signals : patches.signals state.back = true) :
    InChain places patches state.hostStep := by
  have same : state.hostStep = { (state.modifyJob state.currentJob fun job =>
      { job with hasInOrderWorkload := true }).setLastWaitBo ((state.bufferAt state.back).map VPUCommandBuffer.buffer) with
      pending := state.requests 0 } := by
    rw [InOrderQueue.hostStep, pending]
    rfl
  have buffers := state.bufferAt_modifyJob state.currentJob (fun job => { job with hasInOrderWorkload := true })
    fun _ => rfl
  rw [same]
  have counts := state.count_modifyJob state.currentJob (fun job => { job with hasInOrderWorkload := true }) fun _ => rfl
  refine ⟨inv.chained.elsewhere rfl buffers rfl, inv.identified, inv.inside, inv.inOrder,
    inv.numbered.passes pending rfl rfl counts rfl, ?_⟩
  generalize next_eq : ({ (state.modifyJob state.currentJob fun job =>
      { job with hasInOrderWorkload := true }).setLastWaitBo ((state.bufferAt state.back).map VPUCommandBuffer.buffer) with
    pending := state.requests 0 } : InOrderQueue) = next
  have current : next.currentJob = state.currentJob := by rw [← next_eq]; rfl
  have count' : next.count state.currentJob = state.count state.currentJob := by rw [← next_eq]; exact counts _
  have back : next.back = state.back := by rw [InOrderQueue.back, current, count']; rfl
  refine @Phase.requesting places patches next 0 ?_ (.inl ?_) ?_ ?_ ?_
  · rw [current, count']
    exact inside
  · rw [requests_congr current count' (by rw [← next_eq]; rfl), ← next_eq]
  · rw [current]
    refine expects.elsewhere (by rw [← next_eq]; rfl) fun last _ _ held there => ⟨held, ?_, rfl⟩
    rw [← buffers, ← there, ← next_eq]
    rfl
  · rw [back]
    exact signals
  · rw [back, ← inv.chained.same, Option.map_map, ← next_eq]
    rfl

/-- A turbo queue clears the fence of the command buffer that it requests next. -/
theorem hostStep_preparing (inv : InChain places patches state) {index : Nat}
    (inside : index < state.count state.currentJob) (turbo : state.queue.isTurbo = true)
    (pending : state.pending = state.requests index)
    (expects : state.Expects ⟨state.currentJob, index⟩ (patches.waits ⟨state.currentJob, index⟩))
    (signals : patches.signals state.back = true)
    (waits : state.queue.lastWaitBo = (places state.back).map Place.buffer)
    (free : state.WordFree ⟨state.currentJob, index⟩) :
    InChain places (patches.set ⟨state.currentJob, index⟩ (patches.waits ⟨state.currentJob, index⟩) true)
      state.hostStep := by
  generalize slot_eq : (⟨state.currentJob, index⟩ : Slot) = slot at *
  have here : ∃ cb, state.bufferAt slot = some cb := by
    rw [← slot_eq]
    exact bufferAt_inside inside
  obtain ⟨cb, found⟩ := here
  obtain ⟨prepared, word⟩ := (inv.chained.laidOut slot cb found).useBusyWait
  have reads := inv.chained.reads_signalled found cb.useBusyWait_extends.buffer fun cmds head layout => layout.useBusyWait
  have chained := inv.chained.setBuffer found cb.useBusyWait_extends.place prepared (fun _ => rfl) reads
    (.inr ⟨by rw [word]; decide, ?_⟩)
  · have steps : state.pending = .useBusyWait index :: .commandQueueSubmit index state.queue.isTurbo ::
        state.requests (index + 1) := by
      rw [pending, requests_next inside, requestSteps, if_pos turbo]
      rfl
    have same : state.hostStep = { state.setBuffer slot cb.useBusyWait with
        pending := .commandQueueSubmit index state.queue.isTurbo :: state.requests (index + 1) } := by
      rw [InOrderQueue.hostStep, steps]
      simp only [slot_eq]
      exact patch_sure VPUCommandBuffer.useBusyWait found _
    rw [same]
    refine inv.patched chained steps rfl (fun _ _ => rfl) (fun _ => rfl) ?_
    have count := state.count_setBuffer slot cb.useBusyWait state.currentJob
    refine @Phase.requesting places _ _ index (Nat.lt_of_lt_of_eq inside count.symm)
      (.inr (congrArg (List.cons _) (setBuffer_requests (index + 1) _).symm)) ?_ ?_ ?_
    · change InOrderQueue.Expects _ ⟨state.currentJob, index⟩
        ((patches.set slot (patches.waits slot) true).waits ⟨state.currentJob, index⟩)
      rw [slot_eq, Patches.set_waits]
      exact expects.setBuffer found (.inr rfl) _
    · rw [setBuffer_back]
      by_cases own : state.back = slot
      · rw [own, Patches.set_signals]
      · rw [Patches.set_signals_of_ne own]
        exact signals
    · rw [setBuffer_back]
      exact waits
  · intro position prev next foundPrev foundNext own apart idle
    by_contra done
    have pair : (prev, next) ∈ state.runs.zip state.runs.tail := by
      refine List.mem_of_getElem? (i := position) ?_
      rw [List.getElem?_zip_eq_some, List.getElem?_tail]
      exact ⟨foundPrev, foundNext⟩
    have begun := free (prev, next) pair own apart (Bool.not_eq_false _ ▸ done)
    exact absurd idle (Nat.ne_of_gt begun)

/-- The kernel accepts a command buffer. -/
theorem hostStep_requesting (inv : InChain places patches state) {index : Nat}
    (inside : index < state.count state.currentJob)
    (pending : state.pending = .commandQueueSubmit index state.queue.isTurbo :: state.requests (index + 1))
    (expects : state.Expects ⟨state.currentJob, index⟩ (patches.waits ⟨state.currentJob, index⟩))
    (signals : patches.signals state.back = true)
    (waits : state.queue.lastWaitBo = (places state.back).map Place.buffer)
    (settled : state.FenceSettled ⟨state.currentJob, index⟩) : InChain places patches state.hostStep := by
  have here : ∃ cb, state.bufferAt ⟨state.currentJob, index⟩ = some cb := bufferAt_inside inside
  obtain ⟨cb, found⟩ := here
  have same : state.hostStep = { state with
      pending := state.requests (index + 1)
      runs := state.runs ++ [.accepted (state.submitted.length - 1) ⟨state.currentJob, index⟩] } := by
    rw [InOrderQueue.hostStep, pending]
  have last : (state.runs ++ [QueueRun.accepted (state.submitted.length - 1) ⟨state.currentJob, index⟩]).getLast? =
      some (.accepted (state.submitted.length - 1) ⟨state.currentJob, index⟩) := List.getLast?_concat
  rw [same]
  by_cases more : index + 1 < state.count state.currentJob
  · have follows : ∃ behind, state.bufferAt ⟨state.currentJob, index + 1⟩ = some behind := bufferAt_inside more
    obtain ⟨behind, there⟩ := follows
    obtain ⟨linked, own⟩ := inv.inside state.currentJob index behind.place (inv.chained.place there)
    refine ⟨inv.chained.accept found own expects settled _ _, inv.identified, inv.inside, inv.inOrder,
      inv.numbered.accept pending, ?_⟩
    refine @Phase.requesting places patches _ (index + 1) more (.inl rfl) ⟨?_, ?_⟩ signals waits
    · change Linked ⟨state.currentJob, index + 1⟩ (state.runs ++ [_]).getLast?
        (patches.waits ⟨state.currentJob, index + 1⟩)
      rw [last, linked]
      refine .behind _ fun same => ?_
      exact absurd (congrArg Slot.index same) (Nat.ne_of_lt (Nat.lt_succ_self index))
    · intro run found' _ finished
      cases Option.some.inj (last.symm.trans found')
      cases finished
  · have back : state.back = ⟨state.currentJob, index⟩ := by
      rw [InOrderQueue.back]
      congr
      omega
    refine ⟨inv.chained.accept found (back ▸ signals) expects settled _ _, inv.identified, inv.inside, inv.inOrder,
      inv.numbered.accept pending, ?_⟩
    have known : places state.back = some cb.place := by
      rw [back]
      exact inv.chained.place found
    refine .idle (requests_end (by omega)) (@Awaits.last places _ _ cb.place last (back ▸ known) ?_ ?_)
    · rw [known] at waits
      exact waits
    · intro finished
      cases finished

/-- A request is either prepared first or made at once. -/
theorem requesting_cases {index : Nat} (inside : index < state.count state.currentJob)
    (pending : state.pending = state.requests index ∨
      state.pending = .commandQueueSubmit index state.queue.isTurbo :: state.requests (index + 1)) :
    state.queue.isTurbo = true ∧ state.pending = state.requests index ∨
      state.pending = .commandQueueSubmit index state.queue.isTurbo :: state.requests (index + 1) := by
  rcases pending with all | made
  · cases turbo : state.queue.isTurbo with
    | true => exact .inl ⟨rfl, all⟩
    | false =>
      right
      rw [all, requests_next inside, turbo]
      rfl
  · exact .inr made

theorem hostStep (inv : InChain places patches state) (guard : state.KeepsChain .hostStep) :
    ∃ next, InChain places next state.hostStep := by
  cases inv.phase with
  | idle pending _ =>
    refine ⟨patches, ?_⟩
    rw [InOrderQueue.hostStep, pending]
    exact inv
  | finishing inside pending present own => exact ⟨_, inv.hostStep_finishing inside pending present own⟩
  | @heading target inside pending known expects =>
    have free : state.HeadFree := by
      simpa only [KeepsChain, pending, List.cons_append] using guard
    exact ⟨_, inv.hostStep_heading inside pending known expects free⟩
  | tailing inside pending expects => exact ⟨_, inv.hostStep_tailing inside pending expects⟩
  | ordering inside pending expects signals => exact ⟨_, inv.hostStep_ordering inside pending expects signals⟩
  | @requesting index inside pending expects signals waits =>
    rcases requesting_cases inside pending with ⟨turbo, all⟩ | made
    · have free : state.WordFree ⟨state.currentJob, index⟩ := by
        simpa only [KeepsChain, all, requests_next inside, requestSteps, if_pos turbo, List.cons_append] using guard
      exact ⟨_, inv.hostStep_preparing inside turbo all expects signals waits free⟩
    · have settled : state.FenceSettled ⟨state.currentJob, index⟩ := by
        simpa only [KeepsChain, made] using guard
      exact ⟨_, inv.hostStep_requesting inside made expects signals waits settled⟩

/-- A request that is repeated begins anew. -/
theorem hostBusy (inv : InChain places patches state) : InChain places patches state.hostBusy := by
  cases inv.phase with
  | idle pending _ =>
    rw [InOrderQueue.hostBusy, pending]
    exact inv
  | finishing _ pending _ _ =>
    rw [InOrderQueue.hostBusy, pending]
    exact inv
  | heading _ pending _ _ =>
    rw [InOrderQueue.hostBusy, pending]
    exact inv
  | tailing _ pending _ =>
    rw [InOrderQueue.hostBusy, pending]
    exact inv
  | ordering _ pending _ _ =>
    rw [InOrderQueue.hostBusy, pending]
    exact inv
  | @requesting index inside pending expects signals waits =>
    rcases requesting_cases inside pending with ⟨turbo, all⟩ | made
    · rw [InOrderQueue.hostBusy, all, requests_next inside, requestSteps, if_pos turbo]
      exact inv
    · have same : state.hostBusy = { state with
          pending := requestSteps state.queue.isTurbo index ++ state.requests (index + 1) } := by
        rw [InOrderQueue.hostBusy, made]
      rw [same]
      have requests : (requestSteps state.queue.isTurbo index ++ state.requests (index + 1)).filterMap HostStep.request =
          state.pending.filterMap HostStep.request := by
        rw [List.filterMap_append, requested_requestSteps, made]
        rfl
      have under : state.pending ≠ [] := by
        rw [made]
        exact List.cons_ne_nil _ _
      refine ⟨inv.chained.elsewhere rfl (fun _ => rfl) rfl, inv.identified, inv.inside, inv.inOrder,
        inv.numbered.elsewhere rfl (fun _ => rfl) rfl (fun _ => under) requests, ?_⟩
      exact .requesting inside (.inl (requests_next inside).symm) ⟨expects.linked, expects.raised⟩ signals waits

/-- One step of the host or of the device. -/
theorem step (inv : InChain places patches state) {action : QueueAction} (guard : state.KeepsChain action) :
    ∃ next, InChain places next (state.step action) := by
  cases action with
  | submit job => exact ⟨patches, inv.submit job⟩
  | hostStep => exact inv.hostStep guard
  | hostBusy => exact ⟨patches, inv.hostBusy⟩
  | start position =>
    refine ⟨patches, ?_⟩
    rcases inv.chained.start_cases position with same | moved
    · rw [InOrderQueue.step, same]
      exact inv
    · exact inv.moved moved
  | execute position =>
    refine ⟨patches, ?_⟩
    rcases inv.chained.execute_moved position with same | moved
    · rw [InOrderQueue.step, same]
      exact inv
    · exact inv.moved moved

end InChain

end NpuDriver
