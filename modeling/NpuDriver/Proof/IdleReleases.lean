import NpuDriver.LevelZero.ResourceCleaner

/-! The cleaner arms a deadline after idleness, and releases memory once the deadline that stands has passed. -/

namespace NpuDriver

open Library

/-- The deadline that the thread set and did not use yet. -/
def standing : List CleanerEvent → Option Int
  | [] => none
  | .armed _ _ deadline :: _ => some deadline
  | .released _ :: _ | .aborted _ :: _ => none
  | .idle _ _ :: earlier => standing earlier

/-- What must have happened before an event. -/
def CleanerEvent.Warranted (earlier : List CleanerEvent) : CleanerEvent → Prop
  | .armed time timeout deadline =>
    deadline = time + timeout * 1000000 ∧ ∃ began waited, .idle began waited ∈ earlier ∧ began ≤ time
  | .released time => ∃ deadline, standing earlier = some deadline ∧ deadline ≤ time
  | _ => True

def AllWarranted : List CleanerEvent → Prop
  | [] => True
  | event :: earlier => event.Warranted earlier ∧ AllWarranted earlier

theorem AllWarranted.split {later earlier : List CleanerEvent} {event : CleanerEvent}
    (warranted : AllWarranted (later ++ event :: earlier)) : event.Warranted earlier ∧ AllWarranted earlier := by
  induction later with
  | nil => exact warranted
  | cons newest rest ih => exact ih warranted.2

/-- A standing deadline was set by an arming behind which there are idle notifications only. -/
theorem standing_some {log : List CleanerEvent} {deadline : Int} (stands : standing log = some deadline) :
    ∃ between time timeout before, log = between ++ .armed time timeout deadline :: before ∧
      ∀ event ∈ between, ∃ began waited, event = .idle began waited := by
  induction log with
  | nil => cases stands
  | cons event earlier ih =>
    cases event with
    | armed time timeout set =>
      cases stands
      refine ⟨[], time, timeout, earlier, rfl, ?_⟩
      intro event member
      cases member
    | released time => cases stands
    | aborted time => cases stands
    | idle began waited =>
      obtain ⟨between, time, timeout, before, rfl, idle⟩ := ih stands
      refine ⟨.idle began waited :: between, time, timeout, before, rfl, ?_⟩
      intro event member
      rcases List.mem_cons.mp member with newest | older
      · exact ⟨began, waited, newest⟩
      · exact idle event older

theorem addMilliseconds_some {now idleTimeout deadline : Int} (added : addMilliseconds now idleTimeout = some deadline) :
    deadline = now + idleTimeout * 1000000 := by
  obtain ⟨nanoseconds, converted, sum⟩ := Option.bind_eq_some_iff.mp added
  rw [← (checkedAdd_eq_some.mp sum).1, ← (checkedAdd_eq_some.mp converted).1, Int.zero_add]

namespace CleanerPoint

/-- The deadline that the thread carries from one turn of its loop to the next. -/
def timeout? : CleanerPoint → Option Int
  | .looping timeout | .waiting timeout | .woken timeout | .checking timeout => some timeout
  | _ => none

end CleanerPoint

namespace ResourceCleaner

variable {cleaner : ResourceCleaner} {storage : Option CleanerAction} {timeout now : Int} {steps : List CleanerStep}

/-- The thread's deadline is the standing one or none at all, and nothing was armed without a notification. -/
structure Sound (cleaner : ResourceCleaner) : Prop where
  clock : cleaner.now < timePointMax
  deadline : ∀ timeout, cleaner.thread.timeout? = some timeout →
    timeout = timePointMax ∨ standing cleaner.log = some timeout
  idled : cleaner.action = some .PRUNE_AFTER_TIMEOUT →
    ∃ began waited, .idle began waited ∈ cleaner.log ∧ began ≤ cleaner.now
  warranted : AllWarranted cleaner.log

/-- What does not touch the log and keeps the thread's deadline is sound. -/
theorem Sound.moved (sound : Sound cleaner) {thread : CleanerPoint}
    (same : thread.timeout? = some timePointMax ∨ ∀ timeout, thread.timeout? = some timeout →
      cleaner.thread.timeout? = some timeout) : Sound { cleaner with thread := thread } := by
  refine ⟨sound.clock, ?_, sound.idled, sound.warranted⟩
  intro timeout carries
  rcases same with renewed | kept
  · left
    exact Option.some.inj (carries.symm.trans renewed)
  · exact sound.deadline timeout (kept timeout carries)

theorem Sound.run (sound : Sound cleaner) : Sound cleaner.run := by
  unfold ResourceCleaner.run
  split
  · exact sound.moved (.inl rfl)
  · rename_i timeout thread
    have carried : cleaner.thread.timeout? = some timeout := by rw [thread]; rfl
    split
    · exact sound.moved (.inr fun _ absent => by cases absent)
    · exact sound.moved (.inr fun _ same => by cases same; exact carried)
  · rename_i timeout thread
    have carried : cleaner.thread.timeout? = some timeout := by rw [thread]; rfl
    split
    · rename_i passed
      refine ⟨sound.clock, ?_, ?_, ⟨timeout, ?_, passed⟩, sound.warranted⟩
      · intro other absent
        cases absent
      · intro prunes
        obtain ⟨began, waited, member, early⟩ := sound.idled prunes
        exact ⟨began, waited, List.mem_cons_of_mem _ member, early⟩
      · rcases sound.deadline timeout carried with never | stands
        · have clock := sound.clock
          omega
        · exact stands
    · exact sound.moved (.inr fun _ same => by cases same; exact carried)
  · rename_i timeout thread
    have carried : cleaner.thread.timeout? = some timeout := by rw [thread]; rfl
    split
    · rename_i prunes
      obtain ⟨began, waited, member, early⟩ := sound.idled prunes
      split
      · rename_i deadline added
        refine ⟨sound.clock, ?_, ?_, ⟨addMilliseconds_some added, began, waited, member, early⟩, sound.warranted⟩
        · intro other same
          right
          exact same
        · intro _
          exact ⟨began, waited, List.mem_cons_of_mem _ member, early⟩
      · refine ⟨sound.clock, ?_, ?_, trivial, sound.warranted⟩
        · intro other absent
          cases absent
        · intro _
          exact ⟨began, waited, List.mem_cons_of_mem _ member, early⟩
    · exact sound.moved (.inr fun _ same => by cases same; exact carried)
  · exact sound.moved (.inl rfl)
  · exact sound
  · exact sound
  · exact sound

theorem Sound.wake (sound : Sound cleaner) : Sound cleaner.wake := by
  unfold ResourceCleaner.wake
  split
  · rename_i timeout thread
    refine sound.moved (.inr fun other same => ?_)
    cases same
    rw [thread]
    rfl
  · exact sound

theorem Sound.called (sound : Sound cleaner) (caller : CleanerCaller) : Sound { cleaner with caller := caller } :=
  ⟨sound.clock, sound.deadline, sound.idled, sound.warranted⟩

/-- Any action but the one that arms. -/
theorem Sound.acted (sound : Sound cleaner) {action : CleanerAction} (other : action ≠ .PRUNE_AFTER_TIMEOUT)
    (caller : CleanerCaller) : Sound { cleaner with action := some action, caller := caller } :=
  ⟨sound.clock, sound.deadline, fun same => absurd (Option.some.inj same) other, sound.warranted⟩

theorem Sound.setIdle (sound : Sound cleaner) : Sound cleaner.setIdle := by
  unfold ResourceCleaner.setIdle
  split
  · refine ⟨sound.clock, sound.deadline, ?_, trivial, sound.warranted⟩
    intro _
    exact ⟨cleaner.now, _, List.mem_cons_self, Int.le_refl _⟩
  · exact sound

theorem Sound.notify (sound : Sound cleaner) : Sound cleaner.notify := by
  unfold ResourceCleaner.notify
  split
  · exact sound.wake.called _
  · exact sound.wake.called _
  · exact sound

theorem Sound.elapse (sound : Sound cleaner) (time : Nat) : Sound (cleaner.elapse time) := by
  unfold ResourceCleaner.elapse
  split
  · rename_i before
    refine ⟨before, sound.deadline, ?_, sound.warranted⟩
    intro prunes
    obtain ⟨began, waited, member, early⟩ := sound.idled prunes
    exact ⟨began, waited, member, Int.le_trans early (Int.le_add_of_nonneg_right (Int.natCast_nonneg time))⟩
  · exact sound

theorem Sound.act (sound : Sound cleaner) (step : CleanerStep) : Sound (cleaner.act step) := by
  cases step with
  | elapse time => exact sound.elapse time
  | wake => exact sound.wake
  | run => exact sound.run
  | initAction =>
    simp only [ResourceCleaner.act]
    split
    · exact sound.acted (by decide) _
    · exact sound
  | setIdle => exact sound.setIdle
  | setIdleTimeout timeout =>
    simp only [ResourceCleaner.act, setIdleTimeout]
    split
    · exact ⟨sound.clock, sound.deadline, sound.idled, sound.warranted⟩
    · exact sound
  | destroy =>
    simp only [ResourceCleaner.act, destroy]
    split
    · exact sound.acted (by decide) _
    · exact sound
  | notify => exact sound.notify
  | join =>
    simp only [ResourceCleaner.act]
    split
    · exact sound.called _
    · exact sound

theorem Sound.step (sound : Sound cleaner) (step : CleanerStep) : Sound (cleaner.step step) := by
  unfold ResourceCleaner.step
  split
  · exact sound
  · exact sound.act step

theorem sound_new (clear : storage ≠ some .PRUNE_AFTER_TIMEOUT) (running : now < timePointMax) :
    Sound (new storage timeout now) :=
  ⟨running, fun _ absent => (by cases absent), fun same => absurd same clear, trivial⟩

theorem sound_after (timeout : Int) (steps : List CleanerStep) (clear : storage ≠ some .PRUNE_AFTER_TIMEOUT)
    (running : now < timePointMax) : Sound (after storage timeout now steps) :=
  run_invariant (fun _ step sound => sound.step step) (sound_new clear running) steps

/-- Each release of memory comes at least an idle timeout behind the wake-up that armed it, with no other arming
and no other release in between, and that wake-up behind a notification. -/
theorem released_behind_idle (clear : storage ≠ some .PRUNE_AFTER_TIMEOUT) (running : now < timePointMax)
    {later earlier : List CleanerEvent} {time : Int}
    (released : (after storage timeout now steps).log = later ++ .released time :: earlier) :
    ∃ between woken idleTimeout deadline before began waited,
      earlier = between ++ .armed woken idleTimeout deadline :: before ∧
        (∀ event ∈ between, ∃ began waited, event = .idle began waited) ∧
          woken + idleTimeout * 1000000 ≤ time ∧ .idle began waited ∈ before ∧ began ≤ woken := by
  have warranted := (sound_after timeout steps clear running).warranted
  rw [released] at warranted
  obtain ⟨⟨deadline, stands, passed⟩, older⟩ := warranted.split
  obtain ⟨between, woken, idleTimeout, before, rfl, idle⟩ := standing_some stands
  obtain ⟨⟨exactly, began, waited, member, early⟩, -⟩ := older.split
  exact ⟨between, woken, idleTimeout, deadline, before, began, waited, rfl, idle, exactly ▸ passed, member, early⟩

/-- One notification, and a release 300 milliseconds behind the wake-up. -/
theorem released_behind_idle_once :
    ∃ between woken idleTimeout deadline before began waited,
      [.armed 5 300 300000005, .idle 5 true] = between ++ CleanerEvent.armed woken idleTimeout deadline :: before ∧
        (∀ event ∈ between, ∃ began waited, event = .idle began waited) ∧
          woken + idleTimeout * 1000000 ≤ 300000007 ∧ .idle began waited ∈ before ∧ began ≤ woken :=
  @released_behind_idle none 300 0
    [.initAction, .run, .run, .elapse 5, .setIdle, .notify, .run, .run, .run, .elapse 300000002, .wake, .run]
    (by decide) (by decide) [] _ _ (by decide)

end ResourceCleaner

end NpuDriver
