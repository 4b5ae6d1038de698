import NpuDriver.Library.Runs
import NpuDriver.Proof.ChainedSubmissions

/-! While the runs of an in-order queue are chained, the device can finish them one after the other. -/

namespace NpuDriver

open Library VPUCommandBuffer InOrderQueue

def QueueAction.ofDevice : QueueAction → Bool
  | .start _ | .execute _ => true
  | _ => false

/-- Whatever is in front of a position has finished. -/
def InOrderQueue.FrontFinished (state : InOrderQueue) (position : Nat) : Prop :=
  ∀ (earlier : Nat) (other : QueueRun), earlier < position → state.runs[earlier]? = some other → other.finished = true

theorem InOrderQueue.FrontFinished.set {state next : InOrderQueue} {position : Nat} {changed : QueueRun}
    (front : state.FrontFinished position) (runs : next.runs = state.runs.set position changed) :
    next.FrontFinished position := by
  intro earlier other before found
  rw [runs, List.getElem?_set_ne (Nat.ne_of_gt before)] at found
  exact front earlier other before found

/-- A series of steps of the device in which the run at a position finishes and the others stay. -/
structure Finishing (places : Slot → Option Place) (patches : Patches) (state : InOrderQueue) (position : Nat)
    (run : QueueRun) (actions : List QueueAction) : Prop where
  ofDevice : ∀ action ∈ actions, action.ofDevice = true
  chained : Chained places patches (runFrom InOrderQueue.step state actions)
  finishes : ∃ done : QueueRun, done.finished = true ∧ done.label = run.label ∧
    (runFrom InOrderQueue.step state actions).runs = state.runs.set position done

theorem Finishing.cons {places : Slot → Option Place} {patches : Patches} {state : InOrderQueue} {position : Nat}
    {run changed : QueueRun} {action : QueueAction} {actions : List QueueAction} (device : action.ofDevice = true)
    (runs : (state.step action).runs = state.runs.set position changed) (label : changed.label = run.label)
    (finishing : Finishing places patches (state.step action) position changed actions) :
    Finishing places patches state position run (action :: actions) := by
  obtain ⟨ofDevice, chained, done, finished, same, finishes⟩ := finishing
  refine ⟨?_, chained, done, finished, same.trans label, ?_⟩
  · intro other member
    rcases List.mem_cons.mp member with rfl | rest
    · exact device
    · exact ofDevice other rest
  · refine finishes.trans ?_
    rw [runs, List.set_set]

theorem NextCommand.passes {places : Slot → Option Place} {patches : Patches} {state : InOrderQueue} {position : Nat}
    {run : QueueRun} {commands : List (List UInt8)} {waitsFor : Option Slot} {bytes : List UInt8}
    (next : NextCommand places state position run commands waitsFor bytes) (inv : Chained places patches state)
    (front : state.FrontFinished position) {fence : FenceCommand} (decoded : decodeFence bytes = some fence)
    (wait : fence.type = VPU_CMD_FENCE_WAIT) : state.waitPasses fence = true := by
  rw [waitPasses_iff]
  intro slot cb held here
  rcases next.reads.next next.next with ⟨-, inner⟩ | ⟨-, closing⟩
  · rcases inner.waits fence decoded wait with ⟨target, place, waits, start, known, rfl⟩ | others
    · have same : slot = target := inv.distinct slot target cb.place place (inv.place held) known here
      subst same
      have linked := next.linked
      rw [waits] at linked
      cases position with
      | zero => cases linked
      | succ before =>
        rw [previous] at linked
        generalize there : state.runs[before]? = prev at linked
        cases linked with
        | behind prev apart =>
          have gate := inv.gates before prev run there next.present apart start
          exact (gate.word cb held).mpr (front before prev (Nat.lt_succ_self before) there)
    · exact absurd here (others slot cb.place (inv.place held))
  · obtain ⟨place, -, signals⟩ := closing.signals
    rw [decoded] at signals
    cases signals
    cases wait

namespace Chained

variable {places : Slot → Option Place} {patches : Patches} {state : InOrderQueue} {position : Nat} {run : QueueRun}

theorem execute (inv : Chained places patches state) (position : Nat) :
    Chained places patches (state.execute position) := by
  rcases inv.execute_moved position with same | moved
  · rw [same]
    exact inv
  · exact inv.moved moved

theorem start (inv : Chained places patches state) (position : Nat) :
    Chained places patches (state.start position) := by
  rcases inv.start_cases position with same | moved
  · rw [same]
    exact inv
  · exact inv.moved moved

/-- A run with nothing unfinished in front of it goes on. -/
theorem execute_runs (inv : Chained places patches state) (present : state.runs[position]? = some run)
    {commands : List (List UInt8)} (started : run.commands = some commands) (more : run.executed < commands.length)
    (front : state.FrontFinished position) : (state.execute position).runs = state.runs.set position run.further := by
  have found : (run.commands.getD [])[run.executed]? = some commands[run.executed] := by
    rw [started]
    exact List.getElem?_eq_getElem more
  obtain ⟨read, waitsFor, next⟩ := inv.nextCommand present found
  rw [InOrderQueue.execute]
  simp only [present, found]
  cases decoded : decodeFence commands[run.executed] with
  | none => rfl
  | some fence =>
    simp only
    split
    · rename_i wait
      rw [if_pos (next.passes inv front decoded wait)]
      rfl
    · rfl

theorem start_runs (inv : Chained places patches state) (present : state.runs[position]? = some run)
    (unstarted : run.commands = none)
    (front : state.FrontFinished position) :
    ∃ commands, (state.start position).runs = state.runs.set position { run with commands := some commands } := by
  obtain ⟨waitsFor, commands, known, reads, -⟩ := inv.heads position run present
  rw [readBy, unstarted] at known
  obtain ⟨cb, found, read⟩ := Option.bind_eq_some_iff.mp known
  have ready : ((state.runs.take position).all fun earlier => earlier.commands.isSome) = true := by
    refine List.all_eq_true.mpr fun earlier member => ?_
    obtain ⟨place, there⟩ := List.mem_iff_getElem?.mp member
    obtain ⟨inside, -⟩ := List.getElem?_eq_some_iff.mp there
    have before : place < position := Nat.lt_of_lt_of_le inside (List.length_take_le _ _)
    rw [List.getElem?_take_of_lt before] at there
    have finished := front place earlier before there
    cases begun : earlier.commands with
    | none =>
      rw [BufferRun.finished, begun] at finished
      cases finished
    | some _ => rfl
  refine ⟨commands, ?_⟩
  rw [InOrderQueue.start, present]
  simp only [unstarted, found]
  rw [if_pos ready, read]
  rfl

/-- A run that has read its commands is finished by executing what is left of them. -/
theorem finish_started (inv : Chained places patches state) (present : state.runs[position]? = some run)
    {commands : List (List UInt8)} (started : run.commands = some commands)
    (front : state.FrontFinished position) : ∃ actions, Finishing places patches state position run actions := by
  obtain ⟨inside, here⟩ := List.getElem?_eq_some_iff.mp present
  induction left : commands.length - run.executed generalizing state run with
  | zero =>
    refine ⟨[], ⟨fun action member => absurd member (List.not_mem_nil), inv, run, ?_, rfl, ?_⟩⟩
    · rw [BufferRun.finished, started]
      exact decide_eq_true (Nat.le_of_sub_eq_zero left)
    · rw [← here, List.set_getElem_self]
      rfl
  | succ rest ih =>
    have runs := inv.execute_runs present started (by omega) front
    have further : (state.execute position).runs[position]? = some run.further := by
      rw [runs, List.getElem?_set_self inside]
    obtain ⟨inside', here'⟩ := List.getElem?_eq_some_iff.mp further
    have fewer : commands.length - (run.executed + 1) = rest := by omega
    obtain ⟨actions, finishing⟩ := ih (inv.execute position) further started (front.set runs) inside' here' fewer
    exact ⟨.execute position :: actions, finishing.cons rfl runs rfl⟩

theorem finish (inv : Chained places patches state) (present : state.runs[position]? = some run)
    (front : state.FrontFinished position) : ∃ actions, Finishing places patches state position run actions := by
  cases started : run.commands with
  | some commands => exact inv.finish_started present started front
  | none =>
    obtain ⟨inside, -⟩ := List.getElem?_eq_some_iff.mp present
    obtain ⟨commands, runs⟩ := inv.start_runs present started front
    have begun : (state.start position).runs[position]? = some { run with commands := some commands } := by
      rw [runs, List.getElem?_set_self inside]
    obtain ⟨actions, finishing⟩ := (inv.start position).finish_started begun rfl (front.set runs)
    exact ⟨.start position :: actions, finishing.cons rfl runs rfl⟩

/-- The runs are finished one after the other. -/
theorem finish_front (inv : Chained places patches state) (count : Nat) :
    ∃ actions : List QueueAction, (∀ action ∈ actions, action.ofDevice = true) ∧
      Chained places patches (runFrom InOrderQueue.step state actions) ∧
      (runFrom InOrderQueue.step state actions).runs.map QueueRun.label = state.runs.map QueueRun.label ∧
      (runFrom InOrderQueue.step state actions).FrontFinished count := by
  induction count with
  | zero =>
    exact ⟨[], fun _ member => absurd member List.not_mem_nil, inv, rfl,
      fun earlier _ before => absurd before (Nat.not_lt_zero earlier)⟩
  | succ count ih =>
    obtain ⟨first, ofDevice, chained, labels, front⟩ := ih
    generalize reached : runFrom InOrderQueue.step state first = middle at chained labels front
    cases found : middle.runs[count]? with
    | none =>
      refine ⟨first, ofDevice, reached ▸ chained, reached ▸ labels, reached ▸ fun earlier other before there => ?_⟩
      rcases Nat.lt_succ_iff_lt_or_eq.mp before with less | rfl
      · exact front earlier other less there
      · cases found.symm.trans there
    | some run =>
      obtain ⟨second, ofDevice', chained', done, finished, label, finishes⟩ := chained.finish found front
      obtain ⟨inside, -⟩ := List.getElem?_eq_some_iff.mp found
      refine ⟨first ++ second, ?_, ?_, ?_, ?_⟩
      · intro action member
        rcases List.mem_append.mp member with before | after
        · exact ofDevice action before
        · exact ofDevice' action after
      · rw [runFrom_append, reached]
        exact chained'
      · rw [runFrom_append, reached, finishes, map_label_set found label, labels]
      · rw [runFrom_append, reached]
        intro earlier other before there
        rcases Nat.lt_succ_iff_lt_or_eq.mp before with less | rfl
        · exact (front.set finishes) earlier other less there
        · rw [finishes, List.getElem?_set_self inside] at there
          exact Option.some.inj there ▸ finished

end Chained

end NpuDriver
