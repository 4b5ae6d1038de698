import NpuDriver.LevelZero.EventWait

/-! What the host's wait for an event returns, in any interleaving with signals and resets. -/

namespace NpuDriver

open Library ZeResult

/-- The word of an event that is neither new nor reset. -/
def IsSet (word : Nat) : Prop :=
  word ≠ STATE_EVENT_INITIAL ∧ word ≠ STATE_HOST_RESET ∧ word ≠ STATE_DEVICE_RESET

instance (word : Nat) : Decidable (IsSet word) := inferInstanceAs (Decidable (_ ∧ _))

namespace EventWait

/-- A call that has returned success has read a signalled word, and one that has returned that the event is
not ready has done so at its deadline or later. -/
def AnswersInTime (event : EventWait) : Prop :=
  match event.point with
  | .returned deadline word time result =>
    (result = ZE_RESULT_SUCCESS → word = STATE_HOST_SIGNAL ∨ word = STATE_DEVICE_SIGNAL) ∧
      (result = ZE_RESULT_NOT_READY → deadline ≤ time)
  | _ => True

/-- The call waits for metric data after it has waited for the jobs. -/
def TracksMetricData (event : EventWait) : Prop := event.msExpectedDataSize ≠ 0 ∧ event.msGroupMask ≠ 0

/-- There is nothing to wait for any more. -/
def Settled (event : EventWait) (deadline : Nat) : Prop := IsSet event.word ∨ deadline ≤ event.now

instance (event : EventWait) : Decidable event.TracksMetricData := inferInstanceAs (Decidable (_ ∧ _))

instance (event : EventWait) (deadline : Nat) : Decidable (event.Settled deadline) :=
  inferInstanceAs (Decidable (_ ∨ _))

/-- The call comes to the end of its associated jobs, or gives up a failed query for metric data, only when
there is nothing to wait for any more; and once it has, the event is not reset before the deadline. -/
def WaitsLongEnough (event : EventWait) (action : WaitAction) : Prop :=
  match action, event.point with
  | .proceed, .jobs deadline [] => event.TracksMetricData ∨ event.Settled deadline
  | .metricData none, .asking deadline => event.Settled deadline
  | .hostReset, .query deadline | .deviceReset, .query deadline => event.TracksMetricData ∨ deadline ≤ event.now
  | .hostReset, .reading deadline | .deviceReset, .reading deadline => deadline ≤ event.now
  | _, _ => True

instance (event : EventWait) (action : WaitAction) : Decidable (event.WaitsLongEnough action) := by
  unfold WaitsLongEnough
  split <;> infer_instance

/-- Where the waiting is over, there is nothing to wait for any more. -/
def Invariant (event : EventWait) : Prop :=
  match event.point with
  | .query deadline => event.TracksMetricData ∨ event.Settled deadline
  | .reading deadline => event.Settled deadline
  | .returned deadline word time result => result = eventStatus word ∧ (IsSet word ∨ deadline ≤ time)
  | _ => True

theorem eventStatus_success {word : Nat} (success : eventStatus word = ZE_RESULT_SUCCESS) :
    word = STATE_HOST_SIGNAL ∨ word = STATE_DEVICE_SIGNAL := by
  unfold eventStatus at success
  split at success
  · cases success
  · split at success
    · assumption
    · cases success

theorem eventStatus_notReady {word : Nat} (notReady : eventStatus word = ZE_RESULT_NOT_READY) : ¬ IsSet word := by
  unfold eventStatus at notReady
  split at notReady
  · rintro ⟨fresh, host, device⟩
    simp_all
  · split at notReady <;> cases notReady

theorem Invariant.answersInTime {event : EventWait} (invariant : event.Invariant) : event.AnswersInTime := by
  unfold Invariant at invariant
  unfold AnswersInTime
  split
  · rename_i deadline word time result returned
    rw [returned] at invariant
    obtain ⟨rfl, settled⟩ := invariant
    constructor
    · exact eventStatus_success
    · intro notReady
      exact settled.resolve_left (eventStatus_notReady notReady)
  · trivial

theorem Settled.later {event : EventWait} (settled : event.Settled deadline) (time : Nat) :
    IsSet event.word ∨ deadline ≤ event.now + time :=
  settled.imp_right fun reached => Nat.le_add_right_of_le reached

/-- A signal, and a reset after the deadline, leave nothing to wait for. -/
theorem Invariant.written {event : EventWait} (invariant : event.Invariant) {word : Nat}
    (late : ∀ deadline, event.point = .query deadline → event.TracksMetricData ∨ IsSet word ∨ deadline ≤ event.now)
    (later : ∀ deadline, event.point = .reading deadline → IsSet word ∨ deadline ≤ event.now) :
    Invariant { event with word := word } := by
  unfold Invariant at invariant ⊢
  cases point : event.point with
  | query deadline => exact late deadline point
  | reading deadline => exact later deadline point
  | returned deadline read time result =>
    rw [point] at invariant
    exact invariant
  | _ => trivial

theorem Invariant.signalled {event : EventWait} (invariant : event.Invariant) {word : Nat} (set : IsSet word) :
    Invariant { event with word := word } :=
  invariant.written (fun _ _ => .inr (.inl set)) fun _ _ => .inl set

theorem Invariant.elapsed {event : EventWait} (invariant : event.Invariant) (time : Nat) :
    Invariant { event with now := event.now + time } := by
  unfold Invariant at invariant ⊢
  cases point : event.point with
  | query deadline =>
    rw [point] at invariant
    exact invariant.imp_right fun settled => settled.later time
  | reading deadline =>
    rw [point] at invariant
    exact Settled.later invariant time
  | returned deadline read stamp result =>
    rw [point] at invariant
    exact invariant
  | _ => trivial

theorem Invariant.proceeds {event : EventWait} (invariant : event.Invariant)
    (waits : event.WaitsLongEnough .proceed) : event.proceed.Invariant := by
  unfold proceed
  cases point : event.point with
  | idle | waiting | asking | aborted =>
    simp only [Invariant, point]
  | returned deadline word time result =>
    simp only [Invariant, point] at invariant ⊢
    exact invariant
  | jobs deadline left =>
    cases left with
    | nil =>
      simp only [WaitsLongEnough, point] at waits
      exact waits
    | cons name left =>
      simp only
      split <;> trivial
  | buffers deadline fences left =>
    cases fences with
    | nil => trivial
    | cons fence fences =>
      simp only
      split <;> trivial
  | query deadline =>
    simp only [Invariant, point] at invariant
    simp only
    split
    · rename_i tracked
      split
      · rename_i noMask
        exact invariant.resolve_left fun tracks => tracks.2 noMask
      · trivial
    · rename_i untracked
      rcases invariant with tracks | settled
      · -- the word is at least that of a device signal
        have high : STATE_DEVICE_SIGNAL ≤ event.word := Nat.le_of_not_lt fun low => untracked ⟨tracks.1, low⟩
        refine .inl ?_
        simp only [IsSet, STATE_EVENT_INITIAL, STATE_HOST_RESET, STATE_DEVICE_RESET, STATE_DEVICE_SIGNAL] at high ⊢
        omega
      · exact settled
  | checking deadline =>
    simp only
    split
    · rename_i high
      refine .inl ?_
      simp only [IsSet, STATE_EVENT_INITIAL, STATE_HOST_RESET, STATE_DEVICE_RESET, STATE_HOST_SIGNAL] at high ⊢
      omega
    · trivial
  | sleeping deadline =>
    simp only
    split
    · trivial
    · rename_i reached
      exact .inr (Nat.le_of_not_lt reached)
  | reading deadline =>
    simp only [Invariant, point] at invariant
    exact ⟨rfl, invariant⟩

theorem Invariant.metricData {event : EventWait} (invariant : event.Invariant) {size : Option Nat}
    (waits : event.WaitsLongEnough (.metricData size)) : (event.metricData size).Invariant := by
  unfold EventWait.metricData
  split
  · rename_i deadline point
    simp only [WaitsLongEnough, point] at waits
    exact waits
  · split
    · have signalled : IsSet STATE_HOST_SIGNAL := by decide
      exact .inl signalled
    · trivial
  · exact invariant

/-- A call starts with the associated jobs, unless its deadline aborts the process. -/
theorem hostSynchronize_point (event : EventWait) (timeout : Nat) :
    (event.hostSynchronize timeout).point = .aborted ∨
      ∃ deadline left, (event.hostSynchronize timeout).point = .jobs deadline left := by
  rw [hostSynchronize]
  cases getAbsoluteTimeoutNanoseconds event.now timeout with
  | none => exact .inl rfl
  | some deadline => exact .inr ⟨_, _, rfl⟩

theorem Invariant.called (event : EventWait) (timeout : Nat) : (event.hostSynchronize timeout).Invariant := by
  rcases event.hostSynchronize_point timeout with aborted | ⟨deadline, left, called⟩
  · simp only [Invariant, aborted]
  · simp only [Invariant, called]

/-- Every action keeps the invariant. -/
theorem Invariant.step {event : EventWait} {action : WaitAction} (invariant : event.Invariant)
    (waits : event.WaitsLongEnough action) : (event.step action).Invariant := by
  cases action with
  | hostSignal | deviceSignal => exact invariant.signalled (by decide)
  | hostReset | deviceReset =>
    apply invariant.written
    · intro deadline point
      simp only [WaitsLongEnough, point] at waits
      exact waits.imp_right .inr
    · intro deadline point
      simp only [WaitsLongEnough, point] at waits
      exact .inr waits
  | elapse time => exact invariant.elapsed time
  | associateJob job =>
    simp only [EventWait.step]
    split
    · exact invariant
    · exact invariant
  | destroyJob job => exact invariant
  | hostSynchronize timeout =>
    simp only [EventWait.step]
    split
    · exact invariant
    · exact Invariant.called event timeout
  | proceed => exact invariant.proceeds waits
  | waitReturns completed =>
    simp only [EventWait.step]
    split
    · trivial
    · exact invariant
  | metricData size => exact invariant.metricData waits

/-- In a run whose calls wait long enough, every call answers in time. -/
theorem waits_answer_in_time {start : EventWait} {actions : List WaitAction} (idle : start.point = .idle)
    (waits : Guarded EventWait.step WaitsLongEnough start actions) :
    (runFrom EventWait.step start actions).AnswersInTime := by
  have initial : start.Invariant := by simp only [Invariant, idle]
  exact (guarded_invariant (fun _ _ invariant allowed => Invariant.step invariant allowed) initial waits).answersInTime

/-- A job in flight with one command buffer, whose signal command is the event's. -/
def signallingJob : VPUJob where
  commands := []
  cmdBuffers :=
    [{ buffer := ⟨1, 1, 2 ^ 30, 4096, 2 ^ 30⟩, image := fun _ => 0, waitBoGuard := none, jobStatus := 0
       commandsBegin := 0, commandsEnd := 0, syncFenceVpuAddr := 2 ^ 31, bufferHandles := [1]
       inferenceScratchSize := 0, inferenceScratchBuffer := none, preemptionBuffer := none
       preemptionBufferIndex := none, useBusyWaitFlag := false }]
  closed := true
  hasInOrderWorkload := false

/-- A new event and the jobs that are associated with it. -/
def newEvent (associatedJobs : List Nat) : EventWait where
  eventVpuAddr := 2 ^ 31
  msExpectedDataSize := 0
  msGroupMask := 0
  associatedJobs := associatedJobs
  jobs := fun name => if name = 0 then some signallingJob else none
  word := STATE_EVENT_INITIAL
  now := 0
  point := .idle

/-- The call waits until the job has signalled the event. -/
theorem wait_for_job_answers :
    (runFrom EventWait.step (newEvent [0]) [.hostSynchronize 1000, .proceed, .proceed, .elapse 10, .deviceSignal,
      .waitReturns true, .proceed, .proceed, .proceed, .proceed]).AnswersInTime :=
  waits_answer_in_time rfl (by decide)

/-- An event that another thread would signal later, and a job in flight the wait for which is interrupted:
both calls return at once although they may wait for a thousand nanoseconds. -/
theorem wait_returns_early :
    ¬ (runFrom EventWait.step (newEvent []) [.hostSynchronize 1000, .proceed, .proceed, .proceed,
        .hostSignal]).AnswersInTime ∧
      ¬ (runFrom EventWait.step (newEvent [0]) [.hostSynchronize 1000, .proceed, .proceed, .waitReturns false,
        .proceed, .proceed, .proceed, .proceed, .deviceSignal]).AnswersInTime := by
  constructor
  · intro inTime
    exact absurd (inTime.2 rfl) (by decide)
  · intro inTime
    exact absurd (inTime.2 rfl) (by decide)

/-- The result of a call is what the switch makes of the word it has read. -/
def Recorded (event : EventWait) : Prop :=
  match event.point with
  | .returned _ word _ result => result = eventStatus word
  | _ => True

theorem Recorded.step {event : EventWait} (recorded : event.Recorded) (action : WaitAction) :
    (event.step action).Recorded := by
  cases action with
  | hostSignal | deviceSignal | hostReset | deviceReset | elapse | destroyJob => exact recorded
  | associateJob =>
    simp only [EventWait.step]
    split <;> exact recorded
  | hostSynchronize timeout =>
    simp only [EventWait.step]
    split
    · exact recorded
    · rcases event.hostSynchronize_point timeout with aborted | ⟨deadline, left, called⟩
      · simp only [Recorded, aborted]
      · simp only [Recorded, called]
  | proceed =>
    simp only [EventWait.step, EventWait.proceed]
    split
    · trivial
    · split <;> trivial
    · trivial
    · split <;> trivial
    · split
      · split <;> trivial
      · trivial
    · split <;> trivial
    · split <;> trivial
    -- the switch is the only step that returns
    · trivial
    · exact recorded
  | waitReturns =>
    simp only [EventWait.step]
    split
    · trivial
    · exact recorded
  | metricData =>
    simp only [EventWait.step, EventWait.metricData]
    split
    · trivial
    · split <;> trivial
    · exact recorded

/-- A call that returns success has read a signalled word, however long it waits. -/
theorem success_reads_signal {start : EventWait} (idle : start.point = .idle) (actions : List WaitAction)
    {deadline word time : Nat} (returned : (runFrom EventWait.step start actions).point =
      .returned deadline word time ZE_RESULT_SUCCESS) : word = STATE_HOST_SIGNAL ∨ word = STATE_DEVICE_SIGNAL := by
  have initial : start.Recorded := by simp only [Recorded, idle]
  have recorded : (runFrom EventWait.step start actions).Recorded :=
    @run_invariant _ _ EventWait.step start Recorded (fun _ action kept => Recorded.step kept action) initial actions
  simp only [Recorded, returned] at recorded
  exact eventStatus_success recorded.symm

end EventWait

end NpuDriver
