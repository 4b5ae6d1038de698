import NpuDriver.LevelZero.ResourceCleaner

/-! A notified cleaner gets back to work, and its destructor comes to an end. -/

namespace NpuDriver

open Library

namespace CleanerPoint

@[simp] def awake : CleanerPoint → Bool
  | .woken _ | .checking _ => true
  | _ => false

@[simp] def asleep : CleanerPoint → Bool
  | .waiting _ => true
  | _ => false

end CleanerPoint

/-- The destructor was called. -/
@[simp] def CleanerCaller.ending : CleanerCaller → Bool
  | .breaking | .joining | .joined => true
  | _ => false

/-- What the thread does about a notification. -/
def CleanerEvent.serves : CleanerEvent → Bool
  | .idle _ _ => false
  | _ => true

namespace ResourceCleaner

variable {cleaner : ResourceCleaner} {storage : Option CleanerAction} {timeout now : Int} {steps : List CleanerStep}

/-- The thread, which had begun to wait before the last notification, did nothing about it yet. -/
def unserved (cleaner : ResourceCleaner) : Bool :=
  match cleaner.log with
  | .idle _ true :: _ => true
  | _ => false

/-- Nobody who calls waits in vain: a notification that returned is served by two further steps of the thread, the
destructor by three, and who waits for the mutex has it after two. -/
structure Responsive (cleaner : ResourceCleaner) : Prop where
  heard : cleaner.caller = .free → cleaner.unserved = true →
    ∃ event, event.serves = true ∧ (runFrom step cleaner [.run, .run]).log = event :: cleaner.log
  joins : cleaner.caller = .joining → cleaner.thread ≠ .aborted →
    (runFrom step cleaner [.run, .run, .run, .join]).caller = .joined
  unlocks : cleaner.thread.holdsMutex = true → (runFrom step cleaner [.run, .run]).thread.holdsMutex = false

/-- The thread ends on request only, and does not sleep over one. -/
structure Attended (cleaner : ResourceCleaner) : Prop where
  broken : cleaner.action = some .BREAK ↔ cleaner.caller.ending = true
  finished : cleaner.thread = .finished → cleaner.action = some .BREAK
  notified : cleaner.caller = .joining ∨ cleaner.caller = .joined → cleaner.thread.asleep = false
  quiet : cleaner.caller = .constructing → cleaner.unserved = false
  heard : cleaner.unserved = true → cleaner.caller.ending = false →
    cleaner.action = some .PRUNE_AFTER_TIMEOUT ∧
      (cleaner.thread.awake = true ∨ cleaner.caller = .notifying ∧ cleaner.thread.asleep = true)

theorem Attended.ends (attended : Attended cleaner) (called : cleaner.caller = .joining ∨ cleaner.caller = .joined) :
    cleaner.action = some .BREAK := by
  apply attended.broken.mpr
  rcases called with joining | joined
  · rw [joining]
    rfl
  · rw [joined]
    rfl

/-- A step of the thread that leaves no event behind. -/
theorem Attended.moved (attended : Attended cleaner) {thread : CleanerPoint}
    (finishes : thread = .finished → cleaner.action = some .BREAK)
    (sleeps : thread.asleep = true → cleaner.action ≠ some .BREAK)
    (stays : cleaner.unserved = true → cleaner.caller.ending = false → thread.awake = true) :
    Attended { cleaner with thread := thread } := by
  refine ⟨attended.broken, finishes, ?_, attended.quiet, ?_⟩
  · intro called
    by_contra asleep
    exact sleeps (Bool.of_not_eq_false asleep) (attended.ends called)
  · intro unserved going
    exact ⟨(attended.heard unserved going).1, .inl (stays unserved going)⟩

/-- A step of the thread that serves what was asked. -/
theorem Attended.served (attended : Attended cleaner) {thread : CleanerPoint} {event : CleanerEvent}
    (serves : event.serves = true) (unfinished : thread ≠ .finished) (awake : thread.asleep = false) :
    Attended { cleaner with thread := thread, log := event :: cleaner.log } := by
  have quiet : unserved { cleaner with thread := thread, log := event :: cleaner.log } = false := by
    cases event with
    | idle began waited => cases serves
    | armed time timeout deadline => rfl
    | released time => rfl
    | aborted time => rfl
  refine ⟨attended.broken, fun ends => absurd ends unfinished, fun _ => awake, fun _ => quiet, ?_⟩
  intro unserved
  rw [quiet] at unserved
  cases unserved

/-- Where the thread neither sleeps nor looks at the action, nothing is left to be served. -/
theorem Attended.nothing (attended : Attended cleaner) (awake : cleaner.thread.awake = false)
    (asleep : cleaner.thread.asleep = false) (unserved : cleaner.unserved = true)
    (going : cleaner.caller.ending = false) : False := by
  rcases (attended.heard unserved going).2 with looks | ⟨-, sleeps⟩
  · rw [awake] at looks
    cases looks
  · rw [asleep] at sleeps
    cases sleeps

theorem Attended.run (attended : Attended cleaner) : Attended cleaner.run := by
  unfold ResourceCleaner.run
  split
  · rename_i thread
    refine attended.moved (by simp) (by simp) ?_
    intro unserved going
    exact (attended.nothing (by rw [thread]; rfl) (by rw [thread]; rfl) unserved going).elim
  · rename_i timeout thread
    have idle := attended.nothing (by rw [thread]; rfl) (by rw [thread]; rfl)
    split
    · rename_i breaks
      exact attended.moved (fun _ => breaks) (by simp) fun unserved going =>
        (idle unserved going).elim
    · rename_i continues
      exact attended.moved (by simp) (fun _ => continues) fun unserved going =>
        (idle unserved going).elim
  · split
    · exact attended.served rfl (by decide) rfl
    · exact attended.moved (by simp) (by simp) fun _ _ => rfl
  · split
    · split
      · exact attended.served rfl (by simp) rfl
      · exact attended.served rfl (by decide) rfl
    · rename_i other
      refine attended.moved (by simp) (by simp) ?_
      intro unserved going
      exact absurd (attended.heard unserved going).1 other
  · rename_i thread
    refine attended.moved (by simp) (by simp) ?_
    intro unserved going
    exact (attended.nothing (by rw [thread]; rfl) (by rw [thread]; rfl) unserved going).elim
  · exact attended
  · exact attended
  · exact attended

theorem Attended.wake (attended : Attended cleaner) : Attended cleaner.wake := by
  unfold ResourceCleaner.wake
  split
  · exact attended.moved (by simp) (by simp) fun _ _ => rfl
  · exact attended

theorem wake_asleep (cleaner : ResourceCleaner) : cleaner.wake.thread.asleep = false := by
  unfold ResourceCleaner.wake
  split
  · rfl
  · rename_i awake
    cases thread : cleaner.thread with
    | waiting timeout => exact absurd thread (awake timeout)
    | _ => rfl

/-- A notified thread is awake when the caller goes on. -/
theorem Attended.notify (attended : Attended cleaner) : Attended cleaner.notify := by
  have woken := attended.wake
  have awake := wake_asleep cleaner
  have caller : cleaner.wake.caller = cleaner.caller := by
    unfold ResourceCleaner.wake
    split <;> rfl
  unfold ResourceCleaner.notify
  split
  · rename_i notifying
    have broken := woken.broken
    rw [caller, notifying] at broken
    refine ⟨broken, woken.finished, fun _ => awake, (by simp), ?_⟩
    intro unserved _
    obtain ⟨prunes, looks⟩ := woken.heard unserved (by rw [caller, notifying]; rfl)
    refine ⟨prunes, .inl ?_⟩
    rcases looks with looks | ⟨-, sleeps⟩
    · exact looks
    · rw [awake] at sleeps
      cases sleeps
  · rename_i breaking
    have broken := woken.broken
    rw [caller, breaking] at broken
    refine ⟨broken, woken.finished, fun _ => awake, (by simp), ?_⟩
    intro _ going
    cases going
  · exact attended

theorem Attended.setIdle (attended : Attended cleaner) (running : cleaner.thread ≠ .aborted) :
    Attended cleaner.setIdle := by
  unfold ResourceCleaner.setIdle
  split
  · rename_i free
    have going : cleaner.action ≠ some .BREAK := by
      intro breaks
      have ending := attended.broken.mp breaks
      rw [free.1] at ending
      cases ending
    refine ⟨iff_of_false (by simp) (by simp), ?_, ?_, (by simp), ?_⟩
    · intro finished
      exact absurd (attended.finished finished) going
    · intro called
      rcases called with absent | absent
      · cases absent
      · cases absent
    · intro unserved _
      refine ⟨rfl, ?_⟩
      cases thread : cleaner.thread with
      | starting =>
        simp [ResourceCleaner.unserved, thread] at unserved
      | waiting timeout => exact .inr ⟨rfl, rfl⟩
      | woken timeout => exact .inl rfl
      | finished => exact absurd (attended.finished thread) going
      | aborted => exact absurd thread running
      | looping timeout | checking timeout | releasing =>
        rw [thread] at free
        cases free.2
  · exact attended

/-- What only changes where the caller stands, within a call. -/
theorem Attended.called (attended : Attended cleaner) {caller : CleanerCaller}
    (same : caller.ending = cleaner.caller.ending) (notified : caller = .joined → cleaner.caller = .joining)
    (joining : caller ≠ .joining) (built : caller ≠ .constructing)
    (heard : caller.ending = false → cleaner.caller = .free ∧ caller = .notifying) :
    Attended { cleaner with caller := caller } := by
  refine ⟨?_, attended.finished, ?_, fun absent => absurd absent built, ?_⟩
  · exact attended.broken.trans (by rw [same])
  · rintro (absent | joined)
    · exact absurd absent joining
    · exact attended.notified (.inl (notified joined))
  · intro unserved going
    obtain ⟨free, notifying⟩ := heard going
    obtain ⟨prunes, looks⟩ := attended.heard unserved (by rw [free]; rfl)
    refine ⟨prunes, looks.imp id fun sleeps => ?_⟩
    rw [free] at sleeps
    exact absurd sleeps.1 (by decide)

theorem Attended.act (attended : Attended cleaner) (running : cleaner.thread ≠ .aborted) (step : CleanerStep) :
    Attended (cleaner.act step) := by
  cases step with
  | elapse time =>
    simp only [ResourceCleaner.act, elapse]
    split
    · exact ⟨attended.broken, attended.finished, attended.notified, attended.quiet, attended.heard⟩
    · exact attended
  | wake => exact attended.wake
  | run => exact attended.run
  | initAction =>
    simp only [ResourceCleaner.act]
    split
    · rename_i constructing
      have going : cleaner.action ≠ some .BREAK := by
        intro breaks
        have ending := attended.broken.mp breaks
        rw [constructing] at ending
        cases ending
      refine ⟨iff_of_false (by simp) (by simp), ?_, ?_, by simp, ?_⟩
      · intro finished
        exact absurd (attended.finished finished) going
      · rintro (absent | absent)
        · cases absent
        · cases absent
      · intro unserved _
        rw [← Bool.not_eq_false] at unserved
        exact absurd (attended.quiet constructing) unserved
    · exact attended
  | setIdle => exact attended.setIdle running
  | setIdleTimeout timeout =>
    simp only [ResourceCleaner.act, setIdleTimeout]
    split
    · rename_i free
      have called : Attended { cleaner with caller := .notifying } :=
        attended.called (by rw [free]; rfl) (by simp) (by decide) (by decide) fun _ => ⟨free, rfl⟩
      exact ⟨called.broken, called.finished, called.notified, called.quiet, called.heard⟩
    · exact attended
  | destroy =>
    simp only [ResourceCleaner.act, destroy]
    split
    · refine ⟨iff_of_true rfl rfl, fun _ => rfl, ?_, by simp, ?_⟩
      · rintro (absent | absent)
        · cases absent
        · cases absent
      · intro _ going
        cases going
    · exact attended
  | notify => exact attended.notify
  | join =>
    simp only [ResourceCleaner.act]
    split
    · rename_i joining
      exact attended.called (by rw [joining.1]; rfl) (fun _ => joining.1) (by decide) (by decide) fun going => by
        cases going
    · exact attended

theorem Attended.step (attended : Attended cleaner) (step : CleanerStep) : Attended (cleaner.step step) := by
  unfold ResourceCleaner.step
  split
  · exact attended
  · rename_i running
    exact attended.act running step

theorem attended_new (unbroken : storage ≠ some .BREAK) : Attended (new storage timeout now) := by
  refine ⟨iff_of_false unbroken (by simp [new]), by simp [new], fun _ => rfl, fun _ => rfl, ?_⟩
  intro unserved
  cases unserved

theorem attended_after (timeout now : Int) (steps : List CleanerStep) (unbroken : storage ≠ some .BREAK) :
    Attended (after storage timeout now steps) :=
  run_invariant (fun _ step attended => attended.step step) (attended_new unbroken) steps

theorem heard_served (free : cleaner.caller = .free) (attended : Attended cleaner) (unserved : cleaner.unserved = true) :
    ∃ event, event.serves = true ∧ (runFrom step cleaner [.run, .run]).log = event :: cleaner.log := by
  obtain ⟨prunes, looks⟩ := attended.heard unserved (by rw [free]; rfl)
  have awake : cleaner.thread.awake = true := by
    rcases looks with looks | ⟨notifying, -⟩
    · exact looks
    · rw [free] at notifying
      cases notifying
  cases thread : cleaner.thread with
  | woken timeout =>
    by_cases passed : timeout ≤ cleaner.now
    · refine ⟨.released cleaner.now, rfl, ?_⟩
      simp [runFrom, step, act, ResourceCleaner.run, thread, passed]
    · cases added : addMilliseconds cleaner.now cleaner.idleTimeout with
      | none =>
        refine ⟨.aborted cleaner.now, rfl, ?_⟩
        simp [runFrom, step, act, ResourceCleaner.run, thread, passed, prunes, added]
      | some deadline =>
        refine ⟨.armed cleaner.now cleaner.idleTimeout deadline, rfl, ?_⟩
        simp [runFrom, step, act, ResourceCleaner.run, thread, passed, prunes, added]
  | checking timeout =>
    cases added : addMilliseconds cleaner.now cleaner.idleTimeout with
    | none =>
      refine ⟨.aborted cleaner.now, rfl, ?_⟩
      simp [runFrom, step, act, ResourceCleaner.run, thread, prunes, added]
    | some deadline =>
      refine ⟨.armed cleaner.now cleaner.idleTimeout deadline, rfl, ?_⟩
      simp [runFrom, step, act, ResourceCleaner.run, thread, prunes, added]
  | starting | looping timeout | waiting timeout | releasing | finished | aborted =>
    rw [thread] at awake
    cases awake

theorem joining_joins (attended : Attended cleaner) (joining : cleaner.caller = .joining)
    (running : cleaner.thread ≠ .aborted) :
    (runFrom step cleaner [.run, .run, .run, .join]).caller = .joined := by
  have breaks := attended.ends (.inl joining)
  have awake := attended.notified (.inl joining)
  cases thread : cleaner.thread with
  | waiting timeout =>
    rw [thread] at awake
    cases awake
  | aborted => exact absurd thread running
  | woken timeout =>
    by_cases passed : timeout ≤ cleaner.now
    · simp [runFrom, step, act, ResourceCleaner.run, thread, passed, breaks, joining]
    · simp [runFrom, step, act, ResourceCleaner.run, thread, passed, breaks, joining]
  | starting | looping timeout | checking timeout | releasing | finished =>
    simp [runFrom, step, act, ResourceCleaner.run, thread, breaks, joining]

theorem holdsMutex_unlocks (holds : cleaner.thread.holdsMutex = true) :
    (runFrom step cleaner [.run, .run]).thread.holdsMutex = false := by
  cases thread : cleaner.thread with
  | looping timeout =>
    by_cases breaks : cleaner.action = some .BREAK
    · simp [runFrom, step, act, ResourceCleaner.run, thread, breaks, CleanerPoint.holdsMutex]
    · simp [runFrom, step, act, ResourceCleaner.run, thread, breaks, CleanerPoint.holdsMutex]
  | checking timeout =>
    by_cases prunes : cleaner.action = some .PRUNE_AFTER_TIMEOUT
    · cases added : addMilliseconds cleaner.now cleaner.idleTimeout with
      | none => simp [runFrom, step, act, ResourceCleaner.run, thread, prunes, added, CleanerPoint.holdsMutex]
      | some deadline =>
        simp [runFrom, step, act, ResourceCleaner.run, thread, prunes, added, CleanerPoint.holdsMutex]
    · by_cases breaks : cleaner.action = some .BREAK
      · simp [runFrom, step, act, ResourceCleaner.run, thread, breaks, CleanerPoint.holdsMutex]
      · simp [runFrom, step, act, ResourceCleaner.run, thread, prunes, breaks, CleanerPoint.holdsMutex]
  | releasing =>
    by_cases breaks : cleaner.action = some .BREAK
    · simp [runFrom, step, act, ResourceCleaner.run, thread, breaks, CleanerPoint.holdsMutex]
    · simp [runFrom, step, act, ResourceCleaner.run, thread, breaks, CleanerPoint.holdsMutex]
  | starting | waiting timeout | woken timeout | finished | aborted =>
    rw [thread] at holds
    cases holds

/-- Whenever the steps come in whatever order, the calls end, and the notifications and the end are heard. -/
theorem after_responsive (unbroken : storage ≠ some .BREAK) : Responsive (after storage timeout now steps) :=
  have attended := attended_after timeout now steps unbroken
  ⟨fun free unserved => heard_served free attended unserved, fun joining running => joining_joins attended joining running,
    fun holds => holdsMutex_unlocks holds⟩

/-- The destructor is called while the thread sleeps until its deadline. -/
theorem after_responsive_breaking :
    Responsive (after none 300 0 [.initAction, .run, .run, .setIdle, .notify, .run, .run, .run, .destroy, .notify]) :=
  after_responsive (by decide)

/-- A notification that comes before the thread first sleeps is not served. -/
example : (after none 300 0 [.initAction, .setIdle, .notify, .run, .run, .run]).thread = .waiting timePointMax ∧
    (after none 300 0 [.initAction, .setIdle, .notify, .run, .run, .run]).log = [.idle 0 false] := by decide

/-- Storage that held the enumerator for the end ends the thread before the member is initialised. -/
example : (after (some .BREAK) 300 0 [.run, .run, .initAction]).thread = .finished := by decide

end ResourceCleaner

end NpuDriver
