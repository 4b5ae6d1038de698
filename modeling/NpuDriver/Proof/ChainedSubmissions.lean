import NpuDriver.Proof.ChainedRuns

/-! The steps of the host on an in-order queue: what the patches and requests of a submission must find, so that each
command buffer waits for the one in front of it. -/

namespace NpuDriver

open Library VPUCommandBuffer

/-- The submission of a run and its command buffer. -/
def QueueRun.label (run : QueueRun) : Nat × Slot := (run.submission, run.slot)

theorem map_label_set {runs : List QueueRun} {position : Nat} {run changed : QueueRun}
    (present : runs[position]? = some run) (label : changed.label = run.label) :
    (runs.set position changed).map QueueRun.label = runs.map QueueRun.label := by
  obtain ⟨inside, here⟩ := List.getElem?_eq_some_iff.mp present
  rw [List.map_set, label, ← here]
  refine (congrArg _ ?_).trans (List.set_getElem_self (by rw [List.length_map]; exact inside))
  rw [List.getElem_map]

namespace InOrderQueue

/-- Each submission has its runs, in order, unless they are still to be requested. -/
structure Numbered (state : InOrderQueue) : Prop where
  begun : state.pending ≠ [] → state.submitted ≠ []
  known : ∀ label ∈ state.runs.map QueueRun.label, state.submitted[label.1]? = some label.2.job
  sorted : (state.runs.map QueueRun.label).Pairwise fun first second => first.1 ≤ second.1
  complete : ∀ submission job, state.submitted[submission]? = some job → ∀ index < state.count job,
    (submission, ⟨job, index⟩) ∈ state.runs.map QueueRun.label ∨
      submission + 1 = state.submitted.length ∧ index ∈ state.pending.filterMap HostStep.request

/-- The requests of the job under way from a command buffer on. -/
def requests (state : InOrderQueue) (index : Nat) : List HostStep :=
  (List.range' index (state.count state.currentJob - index)).flatMap (requestSteps state.queue.isTurbo)

/-- Whatever has been submitted of the first command buffer has been read, so that its head can be patched. -/
def HeadFree (state : InOrderQueue) : Prop := ∀ run ∈ state.runs, run.slot = state.front → run.commands.isSome = true

/-- No run has yet to see the fence of the command buffer that an earlier run of it has raised. -/
def WordFree (state : InOrderQueue) (slot : Slot) : Prop :=
  ∀ pair ∈ state.runs.zip state.runs.tail, pair.1.slot = slot → pair.2.slot ≠ slot → pair.1.finished = true →
    0 < pair.2.executed

/-- The run in front has finished or its fence is clear, and the earlier runs of its command buffer have finished. -/
def FenceSettled (state : InOrderQueue) (slot : Slot) : Prop :=
  ∀ last ∈ state.runs.getLast?, last.slot ≠ slot →
    (∀ cb ∈ state.bufferAt last.slot, last.finished = false → cb.fenceValue < STATE_WAIT) ∧
      ∀ run ∈ state.runs.dropLast, run.slot = last.slot → run.finished = true

/-- What a step of the host must find. -/
def KeepsChain (state : InOrderQueue) (action : QueueAction) : Prop :=
  match action, state.pending with
  | .hostStep, .addWaitAtHead _ :: _ => state.HeadFree
  | .hostStep, .useBusyWait index :: _ => state.WordFree ⟨state.currentJob, index⟩
  | .hostStep, .commandQueueSubmit index _ :: _ => state.FenceSettled ⟨state.currentJob, index⟩
  | _, _ => True

/-- A run that is accepted at the slot next is behind the last one. -/
structure Expects (state : InOrderQueue) (slot : Slot) (waitsFor : Option Slot) : Prop where
  linked : Linked slot state.runs.getLast? waitsFor
  raised : ∀ last, state.runs.getLast? = some last → last.slot ≠ slot → state.Raised last

/-- The buffer that the next submission waits for is that of the last run. -/
inductive Awaits (places : Slot → Option Place) (state : InOrderQueue) : Prop where
  | nothing (empty : state.runs = []) (waits : state.queue.lastWaitBo = none)
  | last {last : QueueRun} {place : Place} (present : state.runs.getLast? = some last)
      (known : places last.slot = some place) (waits : state.queue.lastWaitBo = some place.buffer)
      (raised : state.Raised last)

end InOrderQueue

/-- Where the host is in a submission. -/
inductive Phase (places : Slot → Option Place) (patches : Patches) (state : InOrderQueue) : Prop where
  | idle (pending : state.pending = []) (awaits : state.Awaits places)
  | finishing {last : QueueRun} (inside : 0 < state.count state.currentJob)
      (pending : state.pending = [.waitForCompletion, .addWaitAtHead none, .addSelfSignalAtTail, .setInOrder] ++
        state.requests 0)
      (present : state.runs.getLast? = some last) (own : last.slot = state.front)
  | heading {target : Option Slot} (inside : 0 < state.count state.currentJob)
      (pending : state.pending = [.addWaitAtHead ((target.bind places).map Place.buffer), .addSelfSignalAtTail,
        .setInOrder] ++ state.requests 0)
      (known : ∀ slot, target = some slot → ∃ place, places slot = some place)
      (expects : state.Expects state.front target)
  | tailing (inside : 0 < state.count state.currentJob)
      (pending : state.pending = [.addSelfSignalAtTail, .setInOrder] ++ state.requests 0)
      (expects : state.Expects state.front (patches.waits state.front))
  | ordering (inside : 0 < state.count state.currentJob) (pending : state.pending = [.setInOrder] ++ state.requests 0)
      (expects : state.Expects state.front (patches.waits state.front)) (signals : patches.signals state.back = true)
  | requesting {index : Nat} (inside : index < state.count state.currentJob)
      (pending : state.pending = state.requests index ∨
        state.pending = .commandQueueSubmit index state.queue.isTurbo :: state.requests (index + 1))
      (expects : state.Expects ⟨state.currentJob, index⟩ (patches.waits ⟨state.currentJob, index⟩))
      (signals : patches.signals state.back = true)
      (waits : state.queue.lastWaitBo = (places state.back).map Place.buffer)

/-- The invariant of an in-order queue while the chain is kept. -/
structure InChain (places : Slot → Option Place) (patches : Patches) (state : InOrderQueue) : Prop where
  chained : Chained places patches state
  identified : ∀ slot other place second, places slot = some place → places other = some second →
    place.buffer.id = second.buffer.id → slot = other
  inside : ∀ job index place, places ⟨job, index + 1⟩ = some place →
    patches.waits ⟨job, index + 1⟩ = some ⟨job, index⟩ ∧ patches.signals ⟨job, index⟩ = true
  inOrder : state.queue.isInOrder = true
  numbered : state.Numbered
  phase : Phase places patches state

namespace InOrderQueue

variable {state : InOrderQueue} {position : Nat} {run changed : QueueRun}
  {change : VPUCommandBuffer → VPUCommandBuffer} {slot : Slot}

@[simp] theorem advanced_count (job : Nat) : (state.advanced position changed change).count job = state.count job :=
  (state.setRun position changed).count_mapBuffers change job

theorem advanced_labels (advances : Advances state run changed) (present : state.runs[position]? = some run) :
    (state.advanced position changed change).runs.map QueueRun.label = state.runs.map QueueRun.label := by
  refine map_label_set present ?_
  rw [QueueRun.label, QueueRun.label, advances.submission, advances.slot]

@[simp] theorem advanced_requests (index : Nat) :
    (state.advanced position changed change).requests index = state.requests index := by
  have count := @advanced_count state position changed change state.currentJob
  simp only [requests]
  exact congrArg (fun count => (List.range' index (count - index)).flatMap (requestSteps state.queue.isTurbo)) count

@[simp] theorem advanced_back : (state.advanced position changed change).back = state.back :=
  congrArg (fun count => (⟨state.currentJob, count - 1⟩ : Slot)) (advanced_count state.currentJob)

end InOrderQueue

open InOrderQueue

namespace InOrderQueue.Numbered

variable {state next : InOrderQueue}

/-- Nothing but the runs and the requests counts. -/
theorem elsewhere (numbered : state.Numbered) (submitted : next.submitted = state.submitted)
    (counts : ∀ job, next.count job = state.count job)
    (labels : next.runs.map QueueRun.label = state.runs.map QueueRun.label)
    (pending : next.pending ≠ [] → state.pending ≠ [])
    (requests : next.pending.filterMap HostStep.request = state.pending.filterMap HostStep.request) : next.Numbered := by
  refine ⟨fun more => submitted ▸ numbered.begun (pending more), ?_, ?_, ?_⟩
  · rw [labels, submitted]
    exact numbered.known
  · rw [labels]
    exact numbered.sorted
  · intro submission job found index inside
    rw [submitted] at found
    rw [labels, submitted, requests]
    exact numbered.complete submission job found index (counts job ▸ inside)

/-- A step of the host that requests nothing. -/
theorem passes (numbered : state.Numbered) {first : HostStep} (pending : state.pending = first :: next.pending)
    (silent : first.request = none) (submitted : next.submitted = state.submitted)
    (counts : ∀ job, next.count job = state.count job) (runs : next.runs = state.runs) : next.Numbered := by
  refine numbered.elsewhere submitted counts (congrArg (List.map QueueRun.label) runs) (fun _ => ?_) ?_
  · rw [pending]
    exact List.cons_ne_nil _ _
  · rw [pending, List.filterMap_cons_none silent]

theorem current (numbered : state.Numbered) (pending : state.pending ≠ []) :
    state.submitted[state.submitted.length - 1]? = some state.currentJob := by
  rw [currentJob, ← List.getLast?_eq_getElem?, List.getLast?_eq_some_getLast (numbered.begun pending)]
  rfl

theorem accept (numbered : state.Numbered) {index : Nat} {isTurbo : Bool} {rest : List HostStep}
    (pending : state.pending = .commandQueueSubmit index isTurbo :: rest) :
    InOrderQueue.Numbered { state with
      pending := rest
      runs := state.runs ++ [.accepted (state.submitted.length - 1) ⟨state.currentJob, index⟩] } := by
  have under : state.pending ≠ [] := by
    rw [pending]
    exact List.cons_ne_nil _ _
  have current := numbered.current under
  have positive := List.length_pos_iff.mpr (numbered.begun under)
  have labels : (state.runs ++ [QueueRun.accepted (state.submitted.length - 1) ⟨state.currentJob, index⟩]).map
      QueueRun.label = state.runs.map QueueRun.label ++ [(state.submitted.length - 1, ⟨state.currentJob, index⟩)] := by
    rw [List.map_append]
    rfl
  refine ⟨fun _ => numbered.begun under, ?_, ?_, ?_⟩
  · intro label member
    simp only [labels] at member
    rcases List.mem_append.mp member with before | new
    · exact numbered.known label before
    · rw [List.mem_singleton.mp new]
      exact current
  · simp only [labels]
    refine List.pairwise_append.mpr ⟨numbered.sorted, List.pairwise_singleton _ _, fun label before added new => ?_⟩
    obtain ⟨inside, -⟩ := List.getElem?_eq_some_iff.mp (numbered.known label before)
    rw [List.mem_singleton.mp new]
    exact Nat.le_sub_one_of_lt inside
  · intro submission job found place inside
    simp only [labels]
    rcases numbered.complete submission job found place inside with before | ⟨last, listed⟩
    · exact .inl (List.mem_append_left _ before)
    · rw [pending] at listed
      have either : place = index ∨ place ∈ rest.filterMap HostStep.request := List.mem_cons.mp listed
      rcases either with rfl | later
      · left
        obtain rfl : submission = state.submitted.length - 1 := by omega
        rw [current] at found
        rw [Option.some.inj found]
        exact List.mem_append_right _ (List.mem_singleton_self _)
      · exact .inr ⟨last, later⟩

end InOrderQueue.Numbered

namespace Moved

variable {places : Slot → Option Place} {patches : Patches} {state next : InOrderQueue}

/-- A step of the device lets the next submission go on as before. -/
theorem expects (moved : Moved state next) {slot : Slot} {waitsFor : Option Slot}
    (expects : state.Expects slot waitsFor) : next.Expects slot waitsFor := by
  cases moved with
  | @moves position run changed change present advances words order fences raised =>
    obtain ⟨last, old, found, there, slot, finishes⟩ :=
      @Chained.last_exists state position run changed change advances present
    refine ⟨?_, ?_⟩
    · have linked := expects.linked
      rw [there] at linked
      rw [found]
      cases linked with
      | again _ finished same => exact .again last (finishes finished) (slot.trans same)
      | behind _ apart =>
        rw [← slot] at apart ⊢
        exact .behind last apart
    · intro other also apart
      obtain rfl := Option.some.inj (found.symm.trans also)
      apply raised last found
      intro other same
      rw [there] at same
      obtain rfl := Option.some.inj same
      exact expects.raised old there (slot ▸ apart)

theorem awaits (moved : Moved state next) (awaits : state.Awaits places) : next.Awaits places := by
  cases moved with
  | @moves position run changed change present advances words order fences raised =>
    cases awaits with
    | nothing empty waits =>
      rw [empty] at present
      cases present
    | @last last place there known waits tip =>
      obtain ⟨later, old, found, same, slot, -⟩ :=
        @Chained.last_exists state position run changed change advances present
      obtain rfl := Option.some.inj (there.symm.trans same)
      refine .last found (slot ▸ known) waits (raised later found fun other also => ?_)
      rw [there] at also
      exact Option.some.inj also ▸ tip

theorem numbered (moved : Moved state next) (numbered : state.Numbered) : next.Numbered := by
  cases moved with
  | moves present advances _ _ _ _ =>
    exact numbered.elsewhere rfl advanced_count (advanced_labels advances present) id rfl

theorem phase (moved : Moved state next) (phase : Phase places patches state) : Phase places patches next := by
  have expecting := fun slot waitsFor => @Moved.expects state next moved slot waitsFor
  have awaiting := @Moved.awaits places state next moved
  cases moved with
  | @moves position run changed change present advances words order fences raised =>
    cases phase with
    | idle pending awaits => exact .idle pending (awaiting awaits)
    | @finishing last inside pending there own =>
      obtain ⟨later, old, found, same, slot, -⟩ :=
        @Chained.last_exists state position run changed change advances present
      obtain rfl := Option.some.inj (there.symm.trans same)
      refine .finishing ?_ ?_ found (slot.trans own)
      · rw [advanced_count]
        exact inside
      · rw [advanced_requests]
        exact pending
    | heading inside pending known expects =>
      refine .heading ?_ ?_ known (expecting _ _ expects)
      · rw [advanced_count]
        exact inside
      · rw [advanced_requests]
        exact pending
    | tailing inside pending expects =>
      refine .tailing ?_ ?_ (expecting _ _ expects)
      · rw [advanced_count]
        exact inside
      · rw [advanced_requests]
        exact pending
    | ordering inside pending expects signals =>
      refine .ordering ?_ ?_ (expecting _ _ expects) ?_
      · rw [advanced_count]
        exact inside
      · rw [advanced_requests]
        exact pending
      · rw [advanced_back]
        exact signals
    | requesting inside pending expects signals waits =>
      refine .requesting ?_ ?_ (expecting _ _ expects) ?_ ?_
      · rw [advanced_count]
        exact inside
      · rw [advanced_requests, advanced_requests]
        exact pending
      · rw [advanced_back]
        exact signals
      · rw [advanced_back]
        exact waits

end Moved

namespace InChain

variable {places : Slot → Option Place} {patches : Patches} {state next : InOrderQueue}

theorem moved (inv : InChain places patches state) (moved : Moved state next) : InChain places patches next := by
  refine ⟨inv.chained.moved moved, inv.identified, inv.inside, ?_, moved.numbered inv.numbered, moved.phase inv.phase⟩
  cases moved
  exact inv.inOrder

end InChain

def Patches.set (patches : Patches) (slot : Slot) (waitsFor : Option Slot) (signalled : Bool) : Patches :=
  ⟨Function.update patches.waits slot waitsFor, Function.update patches.signals slot signalled⟩

namespace Patches

variable {patches : Patches} {slot other : Slot} {waitsFor : Option Slot} {signalled : Bool}

@[simp] theorem set_waits : (patches.set slot waitsFor signalled).waits slot = waitsFor := Function.update_self ..

@[simp] theorem set_signals : (patches.set slot waitsFor signalled).signals slot = signalled := Function.update_self ..

theorem set_waits_of_ne (different : other ≠ slot) :
    (patches.set slot waitsFor signalled).waits other = patches.waits other := Function.update_of_ne different ..

theorem set_signals_of_ne (different : other ≠ slot) :
    (patches.set slot waitsFor signalled).signals other = patches.signals other := Function.update_of_ne different ..

theorem set_waits_self :
    (patches.set slot (patches.waits slot) signalled).waits other = patches.waits other := by
  rw [Patches.set, Function.update_eq_self]

theorem set_self (patches : Patches) (slot : Slot) :
    patches.set slot (patches.waits slot) (patches.signals slot) = patches := by
  rw [Patches.set, Function.update_eq_self, Function.update_eq_self]

end Patches

namespace Chained

variable {places : Slot → Option Place} {patches : Patches} {state other : InOrderQueue} {slot : Slot}
  {cb patched : VPUCommandBuffer}

/-- The invariant says nothing of the host. -/
theorem elsewhere (inv : Chained places patches state) (ctx : other.ctx = state.ctx)
    (buffers : ∀ slot, other.bufferAt slot = state.bufferAt slot) (runs : other.runs = state.runs) :
    Chained places patches other := by
  have previous : ∀ position, other.previous position = state.previous position := by
    intro position
    cases position with
    | zero => rfl
    | succ before => rw [InOrderQueue.previous, InOrderQueue.previous, runs]
  refine ⟨?_, inv.distinct, ?_, ?_, ?_, ?_, ?_, ?_⟩
  · intro slot
    rw [buffers]
    exact inv.same slot
  · intro slot cb found
    rw [ctx]
    exact inv.laidOut slot cb (buffers slot ▸ found)
  · rw [runs]
    exact inv.used
  · intro position run found
    rw [runs] at found
    obtain ⟨waitsFor, commands, known, reads, linked⟩ := inv.heads position run found
    refine ⟨waitsFor, commands, ?_, reads, previous position ▸ linked⟩
    rw [readBy, buffers]
    exact known
  · rw [runs]
    exact inv.unread
  · rw [runs]
    exact inv.ordered
  · intro position prev next foundPrev foundNext apart idle
    rw [runs] at foundPrev foundNext
    obtain ⟨word, others⟩ := inv.gates position prev next foundPrev foundNext apart idle
    refine ⟨fun cb held => word cb (buffers prev.slot ▸ held), ?_⟩
    rw [runs]
    exact others

/-- A patch of a command buffer that no run reads differently and that clears only a fence word that nobody waits for. -/
theorem setBuffer (inv : Chained places patches state) {waitsFor : Option Slot} {signalled : Bool}
    (found : state.bufferAt slot = some cb) (place : patched.place = cb.place)
    (inPlace : InPlace state.ctx places waitsFor signalled patched)
    (signals : patches.signals slot = true → signalled = true)
    (reads : patched.readCommands = cb.readCommands ∨ ∀ run ∈ state.runs, run.slot = slot → run.commands.isSome = true)
    (word : patched.fenceValue = cb.fenceValue ∨ patched.fenceValue < STATE_WAIT ∧
      ∀ (position : Nat) (prev next : QueueRun), state.runs[position]? = some prev →
        state.runs[position + 1]? = some next → prev.slot = slot → next.slot ≠ slot → next.executed = 0 →
        prev.finished = false) :
    Chained places (patches.set slot waitsFor signalled) (state.setBuffer slot patched) := by
  have self := @bufferAt_setBuffer_self state slot patched cb found
  have elsewhere := fun other => @bufferAt_setBuffer_of_ne slot other state patched
  refine ⟨?_, inv.distinct, ?_, ?_, ?_, inv.unread, inv.ordered, ?_⟩
  · intro other
    by_cases here : other = slot
    · rw [here, self, Option.map_some, place, inv.place found]
    · rw [elsewhere other here]
      exact inv.same other
  · intro other held there
    by_cases here : other = slot
    · subst here
      rw [self] at there
      rw [Patches.set_waits, Patches.set_signals]
      exact Option.some.inj there ▸ inPlace
    · rw [elsewhere other here] at there
      rw [Patches.set_waits_of_ne here, Patches.set_signals_of_ne here]
      exact inv.laidOut other held there
  · intro run member
    by_cases here : run.slot = slot
    · rw [here, Patches.set_signals]
      exact signals (here ▸ inv.used run member)
    · rw [Patches.set_signals_of_ne here]
      exact inv.used run member
  · intro position run present
    obtain ⟨waits, commands, known, read, linked⟩ := inv.heads position run present
    refine ⟨waits, commands, ?_, read, linked⟩
    rw [readBy] at known ⊢
    cases started : run.commands with
    | some read =>
      rw [started] at known
      exact known
    | none =>
      rw [started] at known
      by_cases here : run.slot = slot
      · rcases reads with same | started'
        · rw [here, found] at known
          rw [here, self]
          exact same.trans known
        · have begun := started' run (List.mem_of_getElem? present) here
          rw [started] at begun
          cases begun
      · rw [elsewhere run.slot here]
        exact known
  · intro position prev next foundPrev foundNext apart idle
    have gate := inv.gates position prev next foundPrev foundNext apart idle
    refine ⟨fun held there => ?_, gate.others⟩
    by_cases here : prev.slot = slot
    · rw [here, self] at there
      obtain rfl := Option.some.inj there
      have former := gate.word cb (here ▸ found)
      rcases word with same | ⟨low, unfinished⟩
      · rw [same]
        exact former
      · have still := unfinished position prev next foundPrev foundNext here (fun back => apart (here.trans back.symm))
          idle
        rw [still]
        exact ⟨fun up => absurd up (Nat.not_le.mpr low), fun done => absurd done Bool.false_ne_true⟩
    · rw [elsewhere prev.slot here] at there
      exact gate.word held there

/-- A patch of the tail signals whatever it was before, so no run reads anything else. -/
theorem reads_signalled (inv : Chained places patches state) (found : state.bufferAt slot = some cb)
    (buffer : patched.buffer = cb.buffer)
    (layouts : ∀ cmds head, Layout state.ctx cb cmds head true → Layout state.ctx patched cmds head true) :
    patched.readCommands = cb.readCommands ∨ ∀ run ∈ state.runs, run.slot = slot → run.commands.isSome = true := by
  have inPlace := inv.laidOut slot cb found
  cases signals : patches.signals slot with
  | false =>
    right
    intro run member here
    have used := inv.used run member
    rw [here, signals] at used
    cases used
  | true =>
    rw [signals] at inPlace
    exact .inl (inPlace.readCommands_eq buffer layouts)

/-- Each run after a request is one from before, or the one that the request has added. -/
theorem concat_found {runs : List QueueRun} {added run : QueueRun} {position : Nat}
    (found : (runs ++ [added])[position]? = some run) :
    runs[position]? = some run ∨ position = runs.length ∧ run = added := by
  by_cases inside : position < runs.length
  · rw [List.getElem?_append_left inside] at found
    exact .inl found
  · rw [List.getElem?_append_right (Nat.le_of_not_lt inside)] at found
    obtain ⟨below, value⟩ := List.getElem?_eq_some_iff.mp found
    rw [List.length_singleton] at below
    refine .inr ⟨by omega, ?_⟩
    rw [← value, List.getElem_singleton]

/-- The kernel accepts a command buffer whose predecessor has finished, or is the only one that can raise its fence. -/
theorem accept (inv : Chained places patches state) (found : state.bufferAt slot = some cb)
    (signals : patches.signals slot = true) (expects : state.Expects slot (patches.waits slot))
    (settled : state.FenceSettled slot) (submission : Nat) (rest : List HostStep) :
    Chained places patches
      { state with pending := rest, runs := state.runs ++ [.accepted submission slot] } := by
  have old : ∀ position run, (state.runs ++ [.accepted submission slot])[position]? = some run →
      state.runs[position]? = some run ∨ position = state.runs.length ∧ run = .accepted submission slot :=
    fun position run there => concat_found there
  have inPlace := inv.laidOut slot cb found
  rw [signals] at inPlace
  obtain ⟨commands, read, reads⟩ := inPlace.reads (inv.place found)
  have linked : Linked slot state.runs.getLast? (patches.waits slot) := expects.linked
  refine ⟨inv.same, inv.distinct, inv.laidOut, ?_, ?_, ?_, ?_, ?_⟩
  · intro run member
    rcases List.mem_append.mp member with before | new
    · exact inv.used run before
    · rw [List.mem_singleton.mp new]
      exact signals
  · intro position run there
    rcases old position run there with before | ⟨rfl, rfl⟩
    · obtain ⟨waitsFor, held, known, heads, linked⟩ := inv.heads position run before
      refine ⟨waitsFor, held, known, heads, ?_⟩
      cases position with
      | zero => exact linked
      | succ front =>
        obtain ⟨inside, -⟩ := List.getElem?_eq_some_iff.mp before
        rw [previous] at linked ⊢
        rw [List.getElem?_append_left (Nat.lt_of_succ_lt inside)]
        exact linked
    · refine ⟨patches.waits slot, commands, ?_, reads, ?_⟩
      · change (state.bufferAt slot).bind readCommands = some commands
        rw [found]
        exact read
      · cases count : state.runs.length with
        | zero =>
          rw [List.length_eq_zero_iff] at count
          rw [count] at linked
          exact linked
        | succ front =>
          rw [List.getLast?_eq_getElem?, count] at linked
          rw [previous, List.getElem?_append_left (by omega)]
          exact linked
  · intro run member started
    rcases List.mem_append.mp member with before | new
    · exact inv.unread run before started
    · rw [List.mem_singleton.mp new]
      rfl
  · intro earlier later first second before foundFirst foundSecond begun
    rcases old later second foundSecond with there | ⟨rfl, rfl⟩
    · obtain ⟨inside, -⟩ := List.getElem?_eq_some_iff.mp there
      rcases old earlier first foundFirst with same | ⟨rfl, -⟩
      · exact inv.ordered earlier later first second before same there begun
      · omega
    · exact absurd begun (Nat.lt_irrefl 0)
  · intro position prev next foundPrev foundNext apart idle
    rcases old (position + 1) next foundNext with there | ⟨last, rfl⟩
    · obtain ⟨inside, -⟩ := List.getElem?_eq_some_iff.mp there
      rcases old position prev foundPrev with same | ⟨rfl, -⟩
      · obtain ⟨word, others⟩ := inv.gates position prev next same there apart idle
        refine ⟨word, fun earlier other before present => ?_⟩
        rcases old earlier other present with kept | ⟨rfl, -⟩
        · exact others earlier other before kept
        · omega
      · omega
    · have present : state.runs.getLast? = some prev := by
        rw [List.getLast?_eq_getElem?, ← last, Nat.add_sub_cancel]
        rcases old position prev foundPrev with same | ⟨rfl, -⟩
        · exact same
        · omega
      obtain ⟨clear, finished⟩ := settled prev present apart
      refine ⟨fun held there => ⟨fun raised => ?_, fun done => expects.raised prev present apart done held there⟩, ?_⟩
      · by_contra unfinished
        exact absurd raised (Nat.not_le.mpr (clear held there (Bool.not_eq_true _ ▸ unfinished)))
      · intro earlier other before present' same
        apply finished other _ same
        rcases old earlier other present' with kept | ⟨rfl, -⟩
        · rw [List.dropLast_eq_take]
          refine List.mem_of_getElem? (i := earlier) ?_
          rw [List.getElem?_take_of_lt (by omega)]
          exact kept
        · omega

end Chained

namespace InOrderQueue

variable {state other : InOrderQueue} {slot place : Slot} {cb patched : VPUCommandBuffer} {waitsFor : Option Slot}

theorem patch_done {change : VPUCommandBuffer → Bool × VPUCommandBuffer} (found : state.bufferAt slot = some cb)
    (success : change cb = (true, patched)) (rest : List HostStep) :
    state.patch slot change rest = { state.setBuffer slot patched with pending := rest } := by
  rw [patch, found]
  simp only [success]

theorem patch_sure (change : VPUCommandBuffer → VPUCommandBuffer) (found : state.bufferAt slot = some cb)
    (rest : List HostStep) :
    state.patch slot (fun cb => (true, change cb)) rest = { state.setBuffer slot (change cb) with pending := rest } := by
  rw [patch, found]

theorem requests_congr (current : other.currentJob = state.currentJob)
    (count : other.count state.currentJob = state.count state.currentJob)
    (turbo : other.queue.isTurbo = state.queue.isTurbo) (index : Nat) : other.requests index = state.requests index := by
  rw [requests, requests, current, count, turbo]

/-- The requests begin with the one of the command buffer. -/
theorem requests_next {index : Nat} (inside : index < state.count state.currentJob) :
    state.requests index = requestSteps state.queue.isTurbo index ++ state.requests (index + 1) := by
  obtain ⟨left, same⟩ : ∃ left, state.count state.currentJob - index = left + 1 :=
    ⟨state.count state.currentJob - index - 1, by omega⟩
  have rest : state.count state.currentJob - (index + 1) = left := by omega
  rw [requests, requests, same, rest, List.range'_succ, List.flatMap_cons]

theorem requests_end {index : Nat} (last : index = state.count state.currentJob) : state.requests index = [] := by
  rw [requests, last, Nat.sub_self]
  rfl

theorem Expects.elsewhere (expects : state.Expects slot waitsFor) (runs : other.runs = state.runs)
    (buffers : ∀ last, state.runs.getLast? = some last → last.slot ≠ slot → ∀ cb, other.bufferAt last.slot = some cb →
      ∃ former, state.bufferAt last.slot = some former ∧ cb.fenceValue = former.fenceValue) :
    other.Expects slot waitsFor := by
  refine ⟨runs ▸ expects.linked, fun last found apart finished cb held => ?_⟩
  rw [runs] at found
  obtain ⟨former, there, word⟩ := buffers last found apart cb held
  rw [word]
  exact expects.raised last found apart finished former there

/-- A patch that leaves the fence word alone, or is one of the command buffer that comes next. -/
theorem Expects.setBuffer (expects : state.Expects slot waitsFor) (found : state.bufferAt place = some cb)
    (word : patched.fenceValue = cb.fenceValue ∨ place = slot) (rest : List HostStep) :
    InOrderQueue.Expects { state.setBuffer place patched with pending := rest } slot waitsFor := by
  refine @Expects.elsewhere state { state.setBuffer place patched with pending := rest } slot waitsFor expects rfl ?_
  intro last present apart held there
  by_cases here : last.slot = place
  · rcases word with same | target
    · have new : (state.setBuffer place patched).bufferAt place = some patched := bufferAt_setBuffer_self found
      have value : (state.setBuffer place patched).bufferAt last.slot = some held := there
      rw [here, new] at value
      exact ⟨cb, here ▸ found, Option.some.inj value ▸ same⟩
    · exact absurd (here.trans target) apart
  · have value : (state.setBuffer place patched).bufferAt last.slot = some held := there
    rw [state.bufferAt_setBuffer_of_ne patched here] at value
    exact ⟨held, value, rfl⟩

theorem setBuffer_requests (index : Nat) (rest : List HostStep) :
    InOrderQueue.requests { state.setBuffer slot patched with pending := rest } index = state.requests index :=
  @requests_congr state { state.setBuffer slot patched with pending := rest } rfl
    (state.count_setBuffer slot patched state.currentJob) rfl index

theorem setBuffer_back (rest : List HostStep) :
    InOrderQueue.back { state.setBuffer slot patched with pending := rest } = state.back :=
  congrArg (fun count => (⟨state.currentJob, count - 1⟩ : Slot)) (state.count_setBuffer slot patched state.currentJob)

end InOrderQueue

namespace InChain

variable {places : Slot → Option Place} {patches : Patches} {state : InOrderQueue} {slot : Slot}

theorem bufferAt_inside (inside : slot.index < state.count slot.job) : ∃ cb, state.bufferAt slot = some cb :=
  Option.isSome_iff_exists.mp (bufferAt_isSome.mpr inside)

/-- The invariant after a patch of a command buffer. -/
theorem patched (inv : InChain places patches state) {patched : VPUCommandBuffer}
    {waitsFor : Option Slot} {signalled : Bool} {first : HostStep} {rest : List HostStep}
    (chained : Chained places (patches.set slot waitsFor signalled) (state.setBuffer slot patched))
    (pending : state.pending = first :: rest) (silent : first.request = none)
    (waits : ∀ before, slot.index = before + 1 → waitsFor = patches.waits slot)
    (signals : patches.signals slot = true → signalled = true)
    (phase : Phase places (patches.set slot waitsFor signalled) { state.setBuffer slot patched with pending := rest }) :
    InChain places (patches.set slot waitsFor signalled) { state.setBuffer slot patched with pending := rest } := by
  have numbered := @Numbered.passes state { state.setBuffer slot patched with pending := rest } inv.numbered first
    pending silent rfl (state.count_setBuffer slot patched) rfl
  refine ⟨chained.elsewhere rfl (fun _ => rfl) rfl, inv.identified, fun job index place there => ?_, inv.inOrder, numbered,
    phase⟩
  obtain ⟨former, signalling⟩ := inv.inside job index place there
  refine ⟨?_, ?_⟩
  · by_cases here : ⟨job, index + 1⟩ = slot
    · subst here
      rw [Patches.set_waits, waits index rfl]
      exact former
    · rw [Patches.set_waits_of_ne here]
      exact former
  · by_cases here : ⟨job, index⟩ = slot
    · subst here
      rw [Patches.set_signals]
      exact signals signalling
    · rw [Patches.set_signals_of_ne here]
      exact signalling

end InChain

end NpuDriver
