import NpuDriver.Proof.QueueBuffers

/-! The invariant of the runs of an in-order queue, and the steps of the device: each run waits for the fence of the
one in front of it, and only that one can raise it. -/

namespace NpuDriver

open Library VPUCommandBuffer

/-- The patches of the command buffers: which other one each waits for, and whether it signals. -/
structure Patches where
  waits : Slot → Option Slot
  signals : Slot → Bool

/-- What a run at a slot waits for: the one in front of it, unless that has finished in the same command buffer. -/
inductive Linked (slot : Slot) : Option QueueRun → Option Slot → Prop where
  | first : Linked slot none none
  | again (prev : QueueRun) (finished : prev.finished = true) (same : prev.slot = slot) : Linked slot (some prev) none
  | behind (prev : QueueRun) (apart : prev.slot ≠ slot) : Linked slot (some prev) (some prev.slot)

namespace InOrderQueue

/-- The commands that a run has read, or would read now. -/
def readBy (state : InOrderQueue) (run : QueueRun) : Option (List (List UInt8)) :=
  match run.commands with
  | some commands => some commands
  | none => (state.bufferAt run.slot).bind readCommands

def previous (state : InOrderQueue) : Nat → Option QueueRun
  | 0 => none
  | position + 1 => state.runs[position]?

/-- The fence word tells whether a run has finished, and the earlier runs of its command buffer are over. -/
structure Gate (state : InOrderQueue) (position : Nat) (prev : QueueRun) : Prop where
  word : ∀ cb, state.bufferAt prev.slot = some cb → (STATE_WAIT ≤ cb.fenceValue ↔ prev.finished = true)
  others : ∀ earlier other, earlier < position → state.runs[earlier]? = some other → other.slot = prev.slot →
    other.finished = true

/-- A run that has finished has left its fence raised. -/
def Raised (state : InOrderQueue) (run : QueueRun) : Prop :=
  run.finished = true → ∀ cb, state.bufferAt run.slot = some cb → STATE_WAIT ≤ cb.fenceValue

end InOrderQueue

open InOrderQueue

/-- The invariant of the runs. While the run behind another one has not begun, the fence between them tells whether
that one has finished. -/
structure Chained (places : Slot → Option Place) (patches : Patches) (state : InOrderQueue) : Prop where
  same : ∀ slot, (state.bufferAt slot).map VPUCommandBuffer.place = places slot
  distinct : ∀ slot other place second, places slot = some place → places other = some second →
    place.fenceAddress = second.fenceAddress → slot = other
  laidOut : ∀ slot cb, state.bufferAt slot = some cb →
    InPlace state.ctx places (patches.waits slot) (patches.signals slot) cb
  used : ∀ run ∈ state.runs, patches.signals run.slot = true
  heads : ∀ position run, state.runs[position]? = some run → ∃ waitsFor commands,
    state.readBy run = some commands ∧ ReadsFor places run.slot waitsFor commands ∧
      Linked run.slot (state.previous position) waitsFor
  unread : ∀ run ∈ state.runs, run.commands = none → run.executed = 0
  ordered : ∀ (earlier later : Nat) (first second : QueueRun), earlier < later → state.runs[earlier]? = some first →
    state.runs[later]? = some second → 0 < second.executed → first.finished = true
  gates : ∀ (position : Nat) (prev next : QueueRun), state.runs[position]? = some prev →
    state.runs[position + 1]? = some next → prev.slot ≠ next.slot → next.executed = 0 → state.Gate position prev

namespace Chained

variable {places : Slot → Option Place} {patches : Patches} {state : InOrderQueue} {position : Nat} {run : QueueRun}
  {slot : Slot} {cb : VPUCommandBuffer}

theorem place (inv : Chained places patches state) (found : state.bufferAt slot = some cb) :
    places slot = some cb.place := by
  rw [← inv.same, found]
  rfl

theorem buffer (inv : Chained places patches state) {place : Place} (there : places slot = some place) :
    ∃ cb, state.bufferAt slot = some cb ∧ cb.place = place := by
  rw [← inv.same] at there
  exact Option.map_eq_some_iff.mp there

theorem reads (inv : Chained places patches state) (present : state.runs[position]? = some run)
    {commands : List (List UInt8)} (started : run.commands = some commands) :
    ∃ waitsFor, ReadsFor places run.slot waitsFor commands ∧ Linked run.slot (state.previous position) waitsFor := by
  obtain ⟨waitsFor, read, known, reads, linked⟩ := inv.heads position run present
  rw [readBy, started] at known
  obtain rfl := Option.some.inj known
  exact ⟨waitsFor, reads, linked⟩

theorem executed_of_finished (inv : Chained places patches state) (present : state.runs[position]? = some run)
    (finished : run.finished = true) : 0 < run.executed := by
  cases started : run.commands with
  | none =>
    rw [BufferRun.finished, started] at finished
    cases finished
  | some commands =>
    obtain ⟨waitsFor, reads, -⟩ := inv.reads present started
    have positive := List.length_pos_iff.mpr reads.nonempty
    rw [BufferRun.finished, started] at finished
    exact Nat.lt_of_lt_of_le positive (of_decide_eq_true finished)

/-- Behind a run that has not begun, none has. -/
theorem untouched (inv : Chained places patches state) (present : state.runs[position]? = some run)
    (idle : run.executed = 0) {later : Nat} {other : QueueRun} (behind : position ≤ later)
    (found : state.runs[later]? = some other) : other.executed = 0 := by
  rcases Nat.eq_or_lt_of_le behind with rfl | after
  · rw [present] at found
    exact Option.some.inj found ▸ idle
  · by_contra begun
    have finished := inv.ordered position later run other after present found (Nat.pos_of_ne_zero begun)
    exact absurd idle (Nat.ne_of_gt (inv.executed_of_finished present finished))

end Chained

/-- What a step of the device may make of a run, which has read its commands afterwards. -/
structure Advances (state : InOrderQueue) (run changed : QueueRun) : Prop where
  slot : changed.slot = run.slot
  submission : changed.submission = run.submission
  finishes : run.finished = true → changed.finished = true
  reads : ∀ commands, state.readBy run = some commands → changed.commands = some commands
  later : run.executed ≤ changed.executed

/-- A change of the fence words alone. -/
def WordsOnly (change : VPUCommandBuffer → VPUCommandBuffer) : Prop :=
  ∀ cb, change cb = cb ∨ ∃ value, change cb = cb.setFenceValue value

theorem wordsOnly_id : WordsOnly id := fun _ => .inl rfl

theorem WordsOnly.place {change : VPUCommandBuffer → VPUCommandBuffer} (words : WordsOnly change)
    (cb : VPUCommandBuffer) : (change cb).place = cb.place := by
  rcases words cb with same | ⟨value, same⟩
  · rw [same]
  · rw [same]
    rfl

theorem WordsOnly.inPlace {change : VPUCommandBuffer → VPUCommandBuffer} (words : WordsOnly change)
    {ctx : VPUDeviceContext} {places : Slot → Option Place} {waitsFor : Option Slot} {signalled : Bool}
    {cb : VPUCommandBuffer} (inPlace : InPlace ctx places waitsFor signalled cb) :
    InPlace ctx places waitsFor signalled (change cb) ∧ (change cb).readCommands = cb.readCommands := by
  rcases words cb with same | ⟨value, same⟩
  · rw [same]
    exact ⟨inPlace, rfl⟩
  · rw [same]
    exact ⟨inPlace.setFenceValue value, inPlace.readCommands_eq rfl fun cmds head layout => layout.setFenceValue value⟩

namespace InOrderQueue

/-- The state after a step of the device. -/
def advanced (state : InOrderQueue) (position : Nat) (changed : QueueRun)
    (change : VPUCommandBuffer → VPUCommandBuffer) : InOrderQueue :=
  (state.setRun position changed).mapBuffers change

variable {state : InOrderQueue} {position place : Nat} {run changed : QueueRun}
  {change : VPUCommandBuffer → VPUCommandBuffer}

@[simp] theorem advanced_runs : (state.advanced position changed change).runs = state.runs.set position changed := rfl

@[simp] theorem advanced_bufferAt (slot : Slot) :
    (state.advanced position changed change).bufferAt slot = (state.bufferAt slot).map change :=
  (state.setRun position changed).bufferAt_mapBuffers change slot

/-- Each run after a step of the device is one from before, or the one that has made the step. -/
theorem advanced_found (present : state.runs[position]? = some run) {later : QueueRun}
    (found : (state.advanced position changed change).runs[place]? = some later) :
    place = position ∧ later = changed ∨ place ≠ position ∧ state.runs[place]? = some later := by
  obtain ⟨inside, -⟩ := List.getElem?_eq_some_iff.mp present
  by_cases here : place = position
  · subst here
    rw [advanced_runs, List.getElem?_set_self inside] at found
    exact .inl ⟨rfl, (Option.some.inj found).symm⟩
  · rw [advanced_runs, List.getElem?_set_ne (Ne.symm here)] at found
    exact .inr ⟨here, found⟩

/-- Each run has a former self. -/
theorem advanced_former (advances : Advances state run changed) (present : state.runs[position]? = some run)
    {later : QueueRun} (found : (state.advanced position changed change).runs[place]? = some later) :
    ∃ former, state.runs[place]? = some former ∧ later.slot = former.slot ∧ later.submission = former.submission ∧
      (former.finished = true → later.finished = true) ∧ former.executed ≤ later.executed := by
  rcases advanced_found present found with ⟨rfl, rfl⟩ | ⟨-, old⟩
  · exact ⟨run, present, advances.slot, advances.submission, advances.finishes, advances.later⟩
  · exact ⟨later, old, rfl, rfl, id, Nat.le_refl _⟩

theorem advanced_previous (advances : Advances state run changed) (present : state.runs[position]? = some run)
    {slot : Slot} {waitsFor : Option Slot} (linked : Linked slot (state.previous place) waitsFor) :
    Linked slot ((state.advanced position changed change).previous place) waitsFor := by
  cases place with
  | zero => exact linked
  | succ before =>
    rw [previous] at linked ⊢
    by_cases here : before = position
    · subst here
      obtain ⟨inside, -⟩ := List.getElem?_eq_some_iff.mp present
      rw [advanced_runs, List.getElem?_set_self inside]
      rw [present] at linked
      cases linked with
      | again _ finished same =>
        exact .again changed (advances.finishes finished) (advances.slot.trans same)
      | behind _ apart =>
        rw [← advances.slot] at apart ⊢
        exact .behind changed apart
    · rw [advanced_runs, List.getElem?_set_ne (Ne.symm here)]
      exact linked

end InOrderQueue

namespace Chained

variable {places : Slot → Option Place} {patches : Patches} {state : InOrderQueue} {position : Nat}
  {run changed : QueueRun} {change : VPUCommandBuffer → VPUCommandBuffer}

theorem readBy_advanced (inv : Chained places patches state) (words : WordsOnly change) (other : QueueRun) :
    (state.advanced position changed change).readBy other = state.readBy other := by
  rw [readBy, readBy]
  cases other.commands with
  | some commands => rfl
  | none =>
    rw [advanced_bufferAt]
    cases found : state.bufferAt other.slot with
    | none => rfl
    | some cb => exact (words.inPlace (inv.laidOut other.slot cb found)).2

/-- A step of the device keeps the invariant when it keeps the order and the fences. -/
theorem advance (inv : Chained places patches state) (present : state.runs[position]? = some run)
    (advances : Advances state run changed) (words : WordsOnly change)
    (order : 0 < changed.executed → ∀ (earlier : Nat) (other : QueueRun), earlier < position →
      state.runs[earlier]? = some other → other.finished = true)
    (fences : ∀ (place : Nat) (prev next : QueueRun),
      (state.advanced position changed change).runs[place]? = some prev →
      (state.advanced position changed change).runs[place + 1]? = some next → prev.slot ≠ next.slot →
      next.executed = 0 → ∀ cb, state.bufferAt prev.slot = some cb →
        (STATE_WAIT ≤ (change cb).fenceValue ↔ prev.finished = true)) :
    Chained places patches (state.advanced position changed change) := by
  have former := fun place later => @advanced_former state position place run changed change advances present later
  refine ⟨?_, inv.distinct, ?_, ?_, ?_, ?_, ?_, ?_⟩
  · intro slot
    rw [advanced_bufferAt, Option.map_map, ← inv.same]
    exact congrArg (fun place => (state.bufferAt slot).map place) (funext words.place)
  · intro slot cb found
    rw [advanced_bufferAt] at found
    obtain ⟨old, there, rfl⟩ := Option.map_eq_some_iff.mp found
    exact (words.inPlace (inv.laidOut slot old there)).1
  · intro later member
    obtain ⟨place, found⟩ := List.mem_iff_getElem?.mp member
    obtain ⟨old, there, slot, -⟩ := former place later found
    rw [slot]
    exact inv.used old (List.mem_of_getElem? there)
  · intro place later found
    rcases advanced_found present found with ⟨rfl, rfl⟩ | ⟨-, old⟩
    · obtain ⟨waitsFor, commands, known, reads, linked⟩ := inv.heads place run present
      refine ⟨waitsFor, commands, ?_, advances.slot ▸ reads, ?_⟩
      · rw [readBy, advances.reads commands known]
      · rw [advances.slot]
        exact advanced_previous advances present linked
    · obtain ⟨waitsFor, commands, known, reads, linked⟩ := inv.heads place later old
      refine ⟨waitsFor, commands, ?_, reads, advanced_previous advances present linked⟩
      rw [inv.readBy_advanced words]
      exact known
  · intro later member started
    obtain ⟨place, found⟩ := List.mem_iff_getElem?.mp member
    rcases advanced_found present found with ⟨rfl, rfl⟩ | ⟨-, old⟩
    · obtain ⟨waitsFor, commands, known, -⟩ := inv.heads place run present
      rw [advances.reads commands known] at started
      cases started
    · exact inv.unread later (List.mem_of_getElem? old) started
  · intro earlier later first second before foundFirst foundSecond begun
    obtain ⟨old, there, -, -, finishes, -⟩ := former earlier first foundFirst
    apply finishes
    rcases advanced_found present foundSecond with ⟨rfl, rfl⟩ | ⟨-, same⟩
    · exact order begun earlier old before there
    · exact inv.ordered earlier later old second before there same begun
  · intro place prev next foundPrev foundNext apart idle
    obtain ⟨oldPrev, therePrev, slotPrev, -⟩ := former place prev foundPrev
    obtain ⟨oldNext, thereNext, slotNext, -, -, later⟩ := former (place + 1) next foundNext
    have gate := inv.gates place oldPrev oldNext therePrev thereNext (by rw [← slotPrev, ← slotNext]; exact apart)
      (Nat.le_zero.mp (idle ▸ later))
    refine ⟨?_, ?_⟩
    · intro cb found
      rw [advanced_bufferAt] at found
      obtain ⟨old, there, rfl⟩ := Option.map_eq_some_iff.mp found
      exact fences place prev next foundPrev foundNext apart idle old there
    · intro earlier other before foundOther slot
      obtain ⟨old, there, slotOther, -, finishes, -⟩ := former earlier other foundOther
      exact finishes (gate.others earlier old before there (slotOther.symm.trans (slot.trans slotPrev)))

/-- A fence that is watched after a step of the device was watched before. -/
theorem gate_before (inv : Chained places patches state) (present : state.runs[position]? = some run)
    (advances : Advances state run changed) {place : Nat} {prev next : QueueRun}
    (foundPrev : (state.advanced position changed change).runs[place]? = some prev)
    (foundNext : (state.advanced position changed change).runs[place + 1]? = some next) (apart : prev.slot ≠ next.slot)
    (idle : next.executed = 0) :
    ∃ former, state.runs[place]? = some former ∧ former.slot = prev.slot ∧ state.Gate place former := by
  obtain ⟨oldPrev, therePrev, slotPrev, -⟩ := advanced_former advances present foundPrev
  obtain ⟨oldNext, thereNext, slotNext, -, -, later⟩ := advanced_former advances present foundNext
  refine ⟨oldPrev, therePrev, slotPrev.symm, inv.gates place oldPrev oldNext therePrev thereNext ?_ ?_⟩
  · rw [← slotPrev, ← slotNext]
    exact apart
  · exact Nat.le_zero.mp (idle ▸ later)

/-- In front of a run that has finished, all have. -/
theorem finished_before (inv : Chained places patches state) (present : state.runs[position]? = some run)
    (finished : run.finished = true) {earlier : Nat} {other : QueueRun} (before : earlier ≤ position)
    (found : state.runs[earlier]? = some other) : other.finished = true := by
  rcases Nat.eq_or_lt_of_le before with rfl | less
  · rw [present] at found
    exact Option.some.inj found ▸ finished
  · exact inv.ordered earlier position other run less found present (inv.executed_of_finished present finished)

/-- The last run after a step of the device, as it was before. -/
theorem last_former (advances : Advances state run changed) (present : state.runs[position]? = some run)
    {last : QueueRun} (found : (state.advanced position changed change).runs.getLast? = some last) :
    ∃ former, state.runs.getLast? = some former ∧ last.slot = former.slot ∧
      (former.finished = true → last.finished = true) := by
  rw [List.getLast?_eq_getElem?] at found
  obtain ⟨former, there, slot, -, finishes, -⟩ := advanced_former advances present found
  refine ⟨former, ?_, slot, finishes⟩
  rw [List.getLast?_eq_getElem?]
  rw [advanced_runs, List.length_set] at there
  exact there

/-- There is a last run after a step of the device. -/
theorem last_exists (advances : Advances state run changed) (present : state.runs[position]? = some run) :
    ∃ last former, (state.advanced position changed change).runs.getLast? = some last ∧
      state.runs.getLast? = some former ∧ last.slot = former.slot ∧ (former.finished = true → last.finished = true) := by
  cases found : (state.advanced position changed change).runs.getLast? with
  | none =>
    rw [List.getLast?_eq_none_iff, advanced_runs, List.set_eq_nil_iff] at found
    rw [found] at present
    cases present
  | some last =>
    obtain ⟨former, there, slot, finishes⟩ := last_former advances present found
    exact ⟨last, former, rfl, there, slot, finishes⟩

end Chained

/-- A step of the device: it keeps the order of the runs and what their fences tell, and leaves the fence of a last run
raised that has finished. -/
inductive Moved (state : InOrderQueue) : InOrderQueue → Prop where
  | moves {position : Nat} {run changed : QueueRun} {change : VPUCommandBuffer → VPUCommandBuffer}
      (present : state.runs[position]? = some run) (advances : Advances state run changed) (words : WordsOnly change)
      (order : 0 < changed.executed → ∀ (earlier : Nat) (other : QueueRun), earlier < position →
        state.runs[earlier]? = some other → other.finished = true)
      (fences : ∀ (place : Nat) (prev next : QueueRun),
        (state.advanced position changed change).runs[place]? = some prev →
        (state.advanced position changed change).runs[place + 1]? = some next → prev.slot ≠ next.slot →
        next.executed = 0 → ∀ cb, state.bufferAt prev.slot = some cb →
          (STATE_WAIT ≤ (change cb).fenceValue ↔ prev.finished = true))
      (raised : ∀ last, (state.advanced position changed change).runs.getLast? = some last →
        (∀ former, state.runs.getLast? = some former → state.Raised former) →
        (state.advanced position changed change).Raised last) :
      Moved state (state.advanced position changed change)

namespace Chained

variable {places : Slot → Option Place} {patches : Patches} {state : InOrderQueue} {position : Nat}
  {run changed : QueueRun} {change : VPUCommandBuffer → VPUCommandBuffer}

/-- A run that is started has not done anything yet. -/
theorem start_moved (inv : Chained places patches state) {cb : VPUCommandBuffer}
    (present : state.runs[position]? = some run) (unstarted : run.commands = none)
    (found : state.bufferAt run.slot = some cb) :
    Moved state (state.setRun position { run with commands := cb.readCommands }) := by
  have nothing := inv.unread run (List.mem_of_getElem? present) unstarted
  have unfinished : run.finished = false := by rw [BufferRun.finished, unstarted]
  obtain ⟨waitsFor, commands, known, reads, -⟩ := inv.heads position run present
  have read : cb.readCommands = some commands := by
    rw [readBy, unstarted, found] at known
    exact known
  generalize begun : ({ run with commands := cb.readCommands } : QueueRun) = begins
  have slot : begins.slot = run.slot := by rw [← begun]; rfl
  have executed : begins.executed = 0 := by rw [← begun]; exact nothing
  have waiting : begins.finished = false := by
    have positive := List.length_pos_iff.mpr reads.nonempty
    rw [← begun, BufferRun.finished]
    simp only [read, nothing, decide_eq_false_iff_not]
    exact Nat.not_le.mpr positive
  have advances : Advances state run begins := by
    refine ⟨slot, by rw [← begun], fun finished => ?_, fun other same => ?_, by rw [← begun]⟩
    · rw [unfinished] at finished
      cases finished
    · rw [← begun]
      rw [readBy, unstarted, found] at same
      exact same
  have moved : Moved state (state.advanced position begins id) := by
    refine .moves present advances wordsOnly_id (fun begun => absurd executed (Nat.ne_of_gt begun)) ?_ ?_
    · intro place prev next foundPrev foundNext apart idle cb held
      obtain ⟨former, there, same, gate⟩ := inv.gate_before present advances foundPrev foundNext apart idle
      rw [id, gate.word cb (same ▸ held)]
      rcases advanced_found present foundPrev with ⟨rfl, rfl⟩ | ⟨-, old⟩
      · rw [present] at there
        rw [← Option.some.inj there, unfinished, waiting]
      · rw [there] at old
        rw [Option.some.inj old]
    · intro last foundLast before finished cb held
      rw [advanced_bufferAt, Option.map_id, id] at held
      rw [List.getLast?_eq_getElem?] at foundLast
      rcases advanced_found present foundLast with ⟨-, rfl⟩ | ⟨-, old⟩
      · rw [waiting] at finished
        cases finished
      · rw [advanced_runs, List.length_set, ← List.getLast?_eq_getElem?] at old
        exact before last old finished cb held
  rw [advanced, mapBuffers_id] at moved
  exact moved

end Chained

/-- The run has executed one command more. -/
def QueueRun.further (run : QueueRun) : QueueRun := { run with executed := run.executed + 1 }

/-- A run of the queue whose next command the device executes. -/
structure NextCommand (places : Slot → Option Place) (state : InOrderQueue) (position : Nat) (run : QueueRun)
    (commands : List (List UInt8)) (waitsFor : Option Slot) (bytes : List UInt8) : Prop where
  present : state.runs[position]? = some run
  started : run.commands = some commands
  reads : ReadsFor places run.slot waitsFor commands
  linked : Linked run.slot (state.previous position) waitsFor
  next : commands[run.executed]? = some bytes

/-- What a command makes of the fence words: all but the last one raise none, the last one raises that of its own command
buffer. -/
inductive WritesWords (state : InOrderQueue) (run : QueueRun) (commands : List (List UInt8))
    (change : VPUCommandBuffer → VPUCommandBuffer) : Prop where
  | inner (more : run.executed + 1 < commands.length) (low : ∀ slot cb, state.bufferAt slot = some cb →
      STATE_WAIT ≤ (change cb).fenceValue → STATE_WAIT ≤ cb.fenceValue)
  | closing (last : run.executed + 1 = commands.length)
      (own : ∀ cb, state.bufferAt run.slot = some cb → STATE_WAIT ≤ (change cb).fenceValue)
      (others : ∀ slot cb, state.bufferAt slot = some cb → slot ≠ run.slot → change cb = cb)

namespace NextCommand

variable {places : Slot → Option Place} {patches : Patches} {state : InOrderQueue} {position : Nat}
  {run : QueueRun} {commands : List (List UInt8)} {waitsFor : Option Slot} {bytes : List UInt8}
  {change : VPUCommandBuffer → VPUCommandBuffer}

theorem unfinished (next : NextCommand places state position run commands waitsFor bytes) : run.finished = false := by
  obtain ⟨inside, -⟩ := List.getElem?_eq_some_iff.mp next.next
  rw [BufferRun.finished, next.started]
  exact decide_eq_false (Nat.not_le.mpr inside)

theorem further_finished (next : NextCommand places state position run commands waitsFor bytes) :
    run.further.finished = true ↔ commands.length ≤ run.executed + 1 := by
  rw [QueueRun.further, BufferRun.finished]
  simp only [next.started, decide_eq_true_eq]

theorem advances (next : NextCommand places state position run commands waitsFor bytes) :
    Advances state run run.further := by
  refine ⟨rfl, rfl, fun finished => ?_, fun read known => ?_, Nat.le_succ _⟩
  · rw [next.unfinished] at finished
    cases finished
  · rw [readBy, next.started] at known
    exact next.started.trans known

/-- Whatever was submitted in front of a run that goes on has finished. -/
theorem order (next : NextCommand places state position run commands waitsFor bytes) (inv : Chained places patches state)
    (passes : run.executed = 0 → ∀ target place, waitsFor = some target → places target = some place →
      state.waitPasses ⟨VPU_CMD_FENCE_WAIT, place.fenceAddress, STATE_WAIT⟩ = true)
    {earlier : Nat} {other : QueueRun} (before : earlier < position) (found : state.runs[earlier]? = some other) :
    other.finished = true := by
  rcases Nat.eq_zero_or_pos run.executed with start | begun
  · obtain ⟨front, rfl⟩ : ∃ front, position = front + 1 := ⟨position - 1, by omega⟩
    have linked := next.linked
    rw [previous] at linked
    cases there : state.runs[front]? with
    | none =>
      obtain ⟨inside, -⟩ := List.getElem?_eq_some_iff.mp next.present
      rw [List.getElem?_eq_none_iff] at there
      omega
    | some prev =>
      have finished : prev.finished = true := by
        rw [there] at linked
        cases linked with
        | again _ finished _ => exact finished
        | behind _ apart =>
          have gate := inv.gates front prev run there next.present apart start
          obtain ⟨_, _, -, reads, -⟩ := inv.heads front prev there
          obtain ⟨place, known, -⟩ := reads.length
          obtain ⟨cb, held, rfl⟩ := inv.buffer known
          have passed := waitPasses_iff.mp (passes start prev.slot cb.place rfl known) prev.slot cb held rfl
          exact (gate.word cb held).mp passed
      exact inv.finished_before there finished (Nat.le_of_lt_succ before) found
  · exact inv.ordered earlier position other run before found next.present begun

/-- The fence words after a command, as far as anyone behind it has yet to look at them. -/
theorem tips (next : NextCommand places state position run commands waitsFor bytes) (inv : Chained places patches state)
    (writes : WritesWords state run commands change) {place : Nat} {prev : QueueRun} (behind : position ≤ place)
    (found : (state.advanced position run.further change).runs[place]? = some prev)
    (finished : prev.finished = true) :
    place = position ∧ prev = run.further ∧
      ∀ cb, state.bufferAt prev.slot = some cb → STATE_WAIT ≤ (change cb).fenceValue := by
  rcases advanced_found next.present found with ⟨rfl, rfl⟩ | ⟨different, old⟩
  · refine ⟨rfl, rfl, ?_⟩
    cases writes with
    | inner more _ => exact absurd (next.further_finished.mp finished) (Nat.not_le.mpr more)
    | closing _ own _ => exact own
  · have before : position < place := Nat.lt_of_le_of_ne behind (Ne.symm different)
    have done := inv.finished_before old finished (Nat.le_of_lt before) next.present
    rw [next.unfinished] at done
    cases done

theorem moved (next : NextCommand places state position run commands waitsFor bytes) (inv : Chained places patches state)
    (order : ∀ (earlier : Nat) (other : QueueRun), earlier < position → state.runs[earlier]? = some other →
      other.finished = true) (words : WordsOnly change) (writes : WritesWords state run commands change) :
    Moved state (state.advanced position run.further change) := by
  have advances := next.advances
  refine .moves next.present advances words (fun _ => order) ?_ ?_
  · intro place prev later foundPrev foundNext apart idle cb held
    obtain ⟨former, there, same, gate⟩ := inv.gate_before next.present advances foundPrev foundNext apart idle
    -- the run behind has not begun, so this one is not behind it
    have behind : position ≤ place := by
      by_contra front
      rcases advanced_found next.present foundNext with ⟨-, rfl⟩ | ⟨different, old⟩
      · exact absurd idle (Nat.succ_ne_zero _)
      · have finished := order (place + 1) later (by omega) old
        exact absurd idle (Nat.ne_of_gt (inv.executed_of_finished old finished))
    refine ⟨fun raised => ?_, fun finished => ((next.tips inv writes behind foundPrev) finished).2.2 cb held⟩
    have formerly : former.finished = true → prev.finished = true := by
      obtain ⟨old, present, -, -, finishes, -⟩ := advanced_former advances next.present foundPrev
      rw [there] at present
      exact Option.some.inj present ▸ finishes
    cases writes with
    | inner _ low => exact formerly ((gate.word cb (same ▸ held)).mp (low prev.slot cb held raised))
    | closing last own others =>
      by_cases here : prev.slot = run.slot
      · rcases Nat.eq_or_lt_of_le behind with rfl | before
        · rcases advanced_found next.present foundPrev with ⟨-, rfl⟩ | ⟨different, -⟩
          · exact next.further_finished.mpr (Nat.le_of_eq last.symm)
          · exact absurd rfl different
        · have done := gate.others position run before next.present (here.symm.trans same.symm)
          rw [next.unfinished] at done
          cases done
      · rw [others prev.slot cb held here] at raised
        exact formerly ((gate.word cb (same ▸ held)).mp raised)
  · intro last found _ finished cb held
    rw [List.getLast?_eq_getElem?] at found
    have behind : position ≤ (state.advanced position run.further change).runs.length - 1 := by
      obtain ⟨inside, -⟩ := List.getElem?_eq_some_iff.mp next.present
      rw [advanced_runs, List.length_set]
      omega
    rw [advanced_bufferAt] at held
    obtain ⟨old, there, rfl⟩ := Option.map_eq_some_iff.mp held
    exact (next.tips inv writes behind found finished).2.2 old there

end NextCommand

namespace Chained

variable {places : Slot → Option Place} {patches : Patches} {state next : InOrderQueue} {position : Nat} {run : QueueRun}

theorem nextCommand (inv : Chained places patches state) (present : state.runs[position]? = some run) {bytes : List UInt8}
    (found : (run.commands.getD [])[run.executed]? = some bytes) :
    ∃ commands waitsFor, NextCommand places state position run commands waitsFor bytes := by
  cases started : run.commands with
  | none =>
    rw [started] at found
    cases found
  | some commands =>
    rw [started] at found
    obtain ⟨waitsFor, reads, linked⟩ := inv.reads present started
    exact ⟨commands, waitsFor, present, started, reads, linked, found⟩

/-- What the words are after a store: those at its address have the value. -/
theorem storeFence_word (fence : FenceCommand) (bound : fence.value < 2 ^ 64) (cb : VPUCommandBuffer) :
    (if cb.fenceAddress = fence.address then cb.setFenceValue fence.value else cb).fenceValue =
      if cb.fenceAddress = fence.address then fence.value else cb.fenceValue := by
  split
  · exact cb.setFenceValue_fenceValue bound
  · rfl

theorem wordsOnly_store (fence : FenceCommand) :
    WordsOnly fun cb => if cb.fenceAddress = fence.address then cb.setFenceValue fence.value else cb := by
  intro cb
  simp only
  split
  · exact .inr ⟨fence.value, rfl⟩
  · exact .inl rfl

/-- A store by a run that goes on. -/
theorem writes_store (inv : Chained places patches state) {commands : List (List UInt8)} {waitsFor : Option Slot}
    {bytes : List UInt8} (next : NextCommand places state position run commands waitsFor bytes) {fence : FenceCommand}
    (decoded : decodeFence bytes = some fence) (store : fence.type ≠ VPU_CMD_FENCE_WAIT) :
    WritesWords state run commands
      fun cb => if cb.fenceAddress = fence.address then cb.setFenceValue fence.value else cb := by
  rcases next.reads.next next.next with ⟨more, inner⟩ | ⟨last, closing⟩
  · refine .inner more fun slot cb held raised => ?_
    by_cases here : cb.fenceAddress = fence.address
    · have small := inner.low fence decoded store slot cb.place (inv.place held) here
      have bound : fence.value < 2 ^ 64 := by
        simp only [STATE_WAIT] at small
        omega
      rw [storeFence_word fence bound, if_pos here] at raised
      omega
    · rw [if_neg here] at raised
      exact raised
  · obtain ⟨place, known, signals⟩ := closing.signals
    rw [decoded] at signals
    obtain rfl := Option.some.inj signals
    refine .closing last (fun cb held => ?_) fun slot cb held different => if_neg fun here => ?_
    · have own : cb.place = place := Option.some.inj ((inv.place held).symm.trans known)
      have here : cb.fenceAddress = place.fenceAddress := congrArg Place.fenceAddress own
      rw [storeFence_word _ (by decide : STATE_DEVICE_SIGNAL < 2 ^ 64), if_pos here]
      exact (by decide : STATE_WAIT ≤ STATE_DEVICE_SIGNAL)
    · exact different (inv.distinct slot run.slot cb.place place (inv.place held) known here)

/-- A command that stores to no fence word. -/
theorem writes_nothing {commands : List (List UInt8)} {waitsFor : Option Slot}
    {bytes : List UInt8} (next : NextCommand places state position run commands waitsFor bytes)
    (reads : ∀ fence, decodeFence bytes = some fence → fence.type = VPU_CMD_FENCE_WAIT) :
    WritesWords state run commands id := by
  rcases next.reads.next next.next with ⟨more, -⟩ | ⟨-, closing⟩
  · exact .inner more fun _ _ _ => id
  · obtain ⟨place, known, signals⟩ := closing.signals
    cases reads _ signals

/-- A run goes on when its wait passes, if its next command is one. -/
theorem further_moved (inv : Chained places patches state) {commands : List (List UInt8)} {waitsFor : Option Slot}
    {bytes : List UInt8} (next : NextCommand places state position run commands waitsFor bytes)
    {change : VPUCommandBuffer → VPUCommandBuffer} (words : WordsOnly change)
    (writes : WritesWords state run commands change)
    (passes : ∀ fence, decodeFence bytes = some fence → fence.type = VPU_CMD_FENCE_WAIT → state.waitPasses fence = true) :
    Moved state (state.advanced position run.further change) := by
  refine next.moved inv (fun earlier other before found => ?_) words writes
  refine next.order inv (fun start target place waits known => ?_) before found
  rcases next.reads.next next.next with ⟨-, inner⟩ | ⟨-, closing⟩
  · obtain ⟨other, there, decoded⟩ := inner.first start target waits
    rw [known] at there
    obtain rfl := Option.some.inj there
    exact passes _ decoded rfl
  · rw [closing.late start] at waits
    cases waits

theorem execute_moved (inv : Chained places patches state) (position : Nat) :
    state.execute position = state ∨ Moved state (state.execute position) := by
  rw [InOrderQueue.execute]
  split
  · exact .inl rfl
  · rename_i run present
    split
    · exact .inl rfl
    · rename_i bytes found
      obtain ⟨commands, waitsFor, next⟩ := inv.nextCommand present found
      have same : state.advanced position run.further id = state.setRun position run.further := mapBuffers_id _
      split
      · rename_i other
        right
        have none : ∀ fence, decodeFence bytes ≠ some fence := fun fence decoded => by
          rw [other] at decoded
          cases decoded
        have moved := inv.further_moved next wordsOnly_id
          (writes_nothing next fun fence decoded => absurd decoded (none fence))
          (fun fence decoded => absurd decoded (none fence))
        rw [same] at moved
        exact moved
      · rename_i fence decoded
        have only : ∀ other, decodeFence bytes = some other → other = fence := fun other also =>
          Option.some.inj (also.symm.trans decoded)
        split
        · rename_i wait
          split
          · rename_i pass
            right
            have moved := inv.further_moved next wordsOnly_id
              (writes_nothing next fun other also => only other also ▸ wait) (fun other also _ => only other also ▸ pass)
            rw [same] at moved
            exact moved
          · exact .inl rfl
        · rename_i store
          right
          exact inv.further_moved next (wordsOnly_store fence) (inv.writes_store next decoded store)
            fun other also wait => absurd (only other also ▸ wait) store

theorem start_cases (inv : Chained places patches state) (position : Nat) :
    state.start position = state ∨ Moved state (state.start position) := by
  rw [InOrderQueue.start]
  split
  · exact .inl rfl
  · rename_i run present
    split
    · rename_i cb unstarted found
      split
      · exact .inr (inv.start_moved present unstarted found)
      · exact .inl rfl
    · exact .inl rfl

theorem moved (inv : Chained places patches state) (moved : Moved state next) : Chained places patches next := by
  cases moved with
  | moves present advances words order fences => exact inv.advance present advances words order fences

end Chained

end NpuDriver
