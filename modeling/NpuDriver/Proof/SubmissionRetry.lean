import NpuDriver.Device.SubmitReplies
import NpuDriver.Proof.InOrderFailures

/-! Which calls the submission of a job makes and how it ends, for any replies of the kernel. -/

namespace NpuDriver

open ZeResult

def IoctlReply.isAccepted : IoctlReply → Bool
  | accepted => true
  | failed _ => false

/-- How often a command buffer was accepted among some calls. -/
def acceptedCalls (calls : List SubmitCall) : Nat := calls.countP fun call => call.reply.isAccepted

/-- The replies for which the code's own comments and results have another meaning than a failed job. -/
def IoctlReply.isMistaken : IoctlReply → Prop
  | accepted => False
  | failed errno => errno = EINTR ∨ errno = EAGAIN ∨ (errno : Int) = EBADFD

instance : DecidablePred IoctlReply.isMistaken
  | .accepted => inferInstanceAs (Decidable False)
  | .failed _ => inferInstanceAs (Decidable (_ ∨ _ ∨ _))

/-- A submission that made some calls: buffers are submitted in order and never again once accepted, it
succeeds when all of them are, an interrupted call does not end it, a full queue does so only after the
polling time, and a lost device is reported as such. -/
structure SubmitsRight (cmdBuffers : Nat) (outcome : Option Bool) (world : SubmitWorld) : Prop where
  ordered : ∀ front call back, world.calls = front ++ call :: back → call.cmdBuf = acceptedCalls front
  success : outcome ≠ none → (outcome = some true ↔ acceptedCalls world.calls = cmdBuffers)
  interrupted : outcome = some false → ∀ call ∈ world.calls.getLast?,
    call.reply ≠ .failed EINTR ∧ call.reply ≠ .failed EAGAIN
  polled : outcome = some false → ∀ call ∈ world.calls.getLast?, call.reply = .failed EBUSY →
    call.since + SubmitWorld.pollTime < world.clock (world.readings - 1)
  lost : outcome = some false → ∀ call ∈ world.calls.getLast?, ∀ errno : Nat, call.reply = .failed errno →
    (errno : Int) = EBADFD → submissionResult false world.errno = ZE_RESULT_ERROR_DEVICE_LOST

/-- The calls for a buffer that the kernel has no room for. -/
def BusyOnly (cmdBuf since : Nat) (calls : List SubmitCall) : Prop :=
  ∀ call ∈ calls, call = ⟨cmdBuf, since, .failed EBUSY⟩

/-- What the loop for one buffer does, up to the world at its end. -/
inductive Polled (world : SubmitWorld) (cmdBuf since : Nat) : Option Bool → List SubmitCall → Prop where
  | accepted (busy : BusyOnly cmdBuf since front) :
    Polled world cmdBuf since (some true) (front ++ [⟨cmdBuf, since, .accepted⟩])
  | failed (busy : BusyOnly cmdBuf since front) (other : world.errno ≠ EBUSY) :
    Polled world cmdBuf since (some false) (front ++ [⟨cmdBuf, since, .failed world.errno⟩])
  | timedOut (busy : BusyOnly cmdBuf since front)
    (late : since + SubmitWorld.pollTime < world.clock (world.readings - 1)) :
    Polled world cmdBuf since (some false) (front ++ [⟨cmdBuf, since, .failed EBUSY⟩])
  | waiting (busy : BusyOnly cmdBuf since front) : Polled world cmdBuf since none front

theorem Polled.busier (polled : Polled world cmdBuf since outcome calls) :
    Polled world cmdBuf since outcome (⟨cmdBuf, since, .failed EBUSY⟩ :: calls) := by
  have grown : ∀ {front : List SubmitCall}, BusyOnly cmdBuf since front →
      BusyOnly cmdBuf since (⟨cmdBuf, since, .failed EBUSY⟩ :: front) :=
    fun busy => List.forall_mem_cons.mpr ⟨rfl, busy⟩
  cases polled with
  | accepted busy => exact .accepted (grown busy)
  | failed busy other => exact .failed (grown busy) other
  | timedOut busy late => exact .timedOut (grown busy) late
  | waiting busy => exact .waiting (grown busy)

/-- What the loop over the buffers from one on does. -/
inductive Submission (world : SubmitWorld) : Nat → Nat → Option Bool → List SubmitCall → Prop where
  | finished (cmdBuf : Nat) : Submission world cmdBuf 0 (some true) []
  | accepted (polled : Polled world cmdBuf since (some true) calls)
    (later : Submission world (cmdBuf + 1) left outcome rest) :
    Submission world cmdBuf (left + 1) outcome (calls ++ rest)
  | stopped (polled : Polled world cmdBuf since outcome calls) (other : outcome ≠ some true) :
    Submission world cmdBuf (left + 1) outcome calls

namespace SubmitWorld

variable {world next : SubmitWorld} {cmdBuf since : Nat} {outcome : Option Bool}

/-- A call of the kernel is one more in the log. -/
theorem doIoctl_some {reply : IoctlReply} (answered : world.doIoctl cmdBuf since = (some reply, next)) :
    next.calls = world.calls ++ [⟨cmdBuf, since, reply⟩] ∧ (∀ errno, reply = .failed errno → next.errno = errno) := by
  rw [doIoctl_eq, osiIoctl] at answered
  split at answered
  · cases answered
  · cases answered
    exact ⟨rfl, nofun⟩
  · cases answered
    exact ⟨rfl, fun _ same => (IoctlReply.failed.inj same)⟩

theorem doIoctl_none (waiting : world.doIoctl cmdBuf since = (none, next)) : next = world := by
  rw [doIoctl_eq, osiIoctl] at waiting
  split at waiting <;> cases waiting
  rfl

/-- One round of the loop for a buffer. -/
theorem submitUntilReply_round (world : SubmitWorld) (cmdBuf since : Nat) :
    world.submitUntilReply cmdBuf since =
      match world.doIoctl cmdBuf since with
      | (none, next) => (none, next)
      | (some .accepted, next) => (some true, next)
      | (some (.failed _), next) =>
        if next.errno ≠ EBUSY then (some false, next)
        else if next.now.1 > since + pollTime then (some false, next.now.2)
        else next.now.2.submitUntilReply cmdBuf since := by
  rw [submitUntilReply]
  split <;> rename_i answered <;> rw [answered]

theorem submitUntilReply_polled (run : world.submitUntilReply cmdBuf since = (outcome, next)) :
    ∃ calls, next.calls = world.calls ++ calls ∧ Polled next cmdBuf since outcome calls := by
  have alone : BusyOnly cmdBuf since [] := nofun
  induction world using submitUntilReply.induct cmdBuf since with
  | case1 world after answered =>
    rw [submitUntilReply_round, answered] at run
    cases run
    obtain rfl := doIoctl_none answered
    exact ⟨[], by simp, .waiting alone⟩
  | case2 world after answered =>
    rw [submitUntilReply_round, answered] at run
    cases run
    exact ⟨_, (doIoctl_some answered).1, .accepted alone⟩
  | case3 world errno after answered other =>
    rw [submitUntilReply_round, answered] at run
    simp only [if_pos other] at run
    cases run
    obtain ⟨called, known⟩ := doIoctl_some answered
    rw [← known errno rfl] at called
    exact ⟨_, called, .failed alone other⟩
  | case4 world errno after answered busy polled late =>
    rw [submitUntilReply_round, answered] at run
    simp only [if_neg busy] at run
    obtain ⟨called, known⟩ := doIoctl_some answered
    rw [← known errno rfl, Decidable.not_not.mp busy] at called
    rw [if_pos late] at run
    cases run
    exact ⟨_, called, .timedOut alone late⟩
  | case5 world errno after answered busy polled early ih =>
    rw [submitUntilReply_round, answered] at run
    simp only [if_neg busy] at run
    obtain ⟨called, known⟩ := doIoctl_some answered
    rw [← known errno rfl, Decidable.not_not.mp busy] at called
    rw [if_neg early] at run
    obtain ⟨calls, later, rest⟩ := ih run
    refine ⟨_, ?_, rest.busier⟩
    rw [later]
    simp only [polled, now, called, List.append_assoc, List.cons_append, List.nil_append]

/-- The calls of a submission after those that were made before. -/
theorem submitEach_submission {left : Nat} (run : world.submitEach cmdBuf left = (outcome, next)) :
    ∃ calls, next.calls = world.calls ++ calls ∧ Submission next cmdBuf left outcome calls := by
  induction left generalizing world cmdBuf with
  | zero =>
    cases run
    exact ⟨[], by simp, .finished cmdBuf⟩
  | succ left ih =>
    rw [submitEach] at run
    generalize polled : world.now.2.submitUntilReply cmdBuf world.now.1 = tried at run
    obtain ⟨answer, after⟩ := tried
    obtain ⟨calls, called, loop⟩ := submitUntilReply_polled polled
    by_cases accepted : answer = some true
    · subst accepted
      obtain ⟨rest, later, submission⟩ := ih run
      have whole : Polled next cmdBuf world.now.1 (some true) calls := by
        cases loop with
        | accepted busy => exact .accepted busy
      refine ⟨calls ++ rest, ?_, .accepted whole submission⟩
      rw [later, called, List.append_assoc]
      rfl
    · have stopped : (answer, after) = (outcome, next) := by
        rw [← run]
        split
        · rename_i same
          exact (accepted (Prod.mk.inj same).1).elim
        · rfl
      cases stopped
      exact ⟨calls, called, .stopped loop accepted⟩

end SubmitWorld

/-- Every call is for the buffer behind those that were accepted. -/
def OrderedFrom : Nat → List SubmitCall → Prop
  | _, [] => True
  | cmdBuf, call :: rest =>
    call.cmdBuf = cmdBuf ∧ OrderedFrom (if call.reply.isAccepted then cmdBuf + 1 else cmdBuf) rest

theorem OrderedFrom.split (ordered : OrderedFrom cmdBuf (front ++ call :: back)) :
    call.cmdBuf = cmdBuf + acceptedCalls front := by
  induction front generalizing cmdBuf with
  | nil => exact ordered.1
  | cons first rest ih =>
    have later := ih ordered.2
    rw [later, acceptedCalls, acceptedCalls, List.countP_cons]
    split
    · omega
    · rfl

theorem OrderedFrom.busy (busy : BusyOnly cmdBuf since front) (later : OrderedFrom cmdBuf rest) :
    OrderedFrom cmdBuf (front ++ rest) := by
  induction front with
  | nil => exact later
  | cons first others ih =>
    obtain ⟨same, fewer⟩ := List.forall_mem_cons.mp busy
    subst same
    exact ⟨rfl, ih fewer⟩

theorem BusyOnly.accepted (busy : BusyOnly cmdBuf since front) : acceptedCalls front = 0 := by
  apply List.countP_eq_zero.mpr
  intro call member
  rw [busy call member]
  exact Bool.false_ne_true

theorem busy_not_mistaken : ¬ (IoctlReply.failed EBUSY).isMistaken := by decide

theorem BusyOnly.not_mistaken (busy : BusyOnly cmdBuf since front) : ∀ call ∈ front, ¬ call.reply.isMistaken := by
  intro call member
  rw [busy call member]
  exact busy_not_mistaken

namespace Submission

variable {world : SubmitWorld} {cmdBuf left : Nat} {outcome : Option Bool} {calls : List SubmitCall}

theorem ordered (submission : Submission world cmdBuf left outcome calls) : OrderedFrom cmdBuf calls := by
  induction submission with
  | finished => trivial
  | accepted polled _ ih =>
    cases polled with
    | accepted busy =>
      rw [List.append_assoc]
      exact OrderedFrom.busy busy ⟨rfl, ih⟩
  | stopped polled other =>
    cases polled with
    | accepted => exact (other rfl).elim
    | failed busy | timedOut busy => exact OrderedFrom.busy busy ⟨rfl, trivial⟩
    | waiting busy =>
      have whole := @OrderedFrom.busy _ _ _ [] busy trivial
      rwa [List.append_nil] at whole

theorem success (submission : Submission world cmdBuf left outcome calls) (ended : outcome ≠ none) :
    outcome = some true ↔ acceptedCalls calls = left := by
  induction submission with
  | finished => simp [acceptedCalls]
  | accepted polled _ ih =>
    cases polled with
    | accepted busy =>
      rw [ih ended]
      have none := busy.accepted
      simp only [acceptedCalls, List.countP_append] at none ⊢
      rw [none]
      simp [IoctlReply.isAccepted]
      omega
  | stopped polled other =>
    cases polled with
    | accepted => exact (other rfl).elim
    | failed busy | timedOut busy =>
      have none := busy.accepted
      simp only [acceptedCalls, List.countP_append] at none ⊢
      rw [none]
      simp [IoctlReply.isAccepted]
    | waiting => exact (ended rfl).elim

/-- How a submission that failed ended. -/
theorem failed (submission : Submission world cmdBuf left (some false) calls) :
    ∃ call, calls.getLast? = some call ∧
      ((call.reply = .failed world.errno ∧ world.errno ≠ EBUSY) ∨
        (call.reply = .failed EBUSY ∧ call.since + SubmitWorld.pollTime < world.clock (world.readings - 1))) := by
  generalize same : some false = outcome at submission
  induction submission with
  | finished => cases same
  | accepted polled _ ih =>
    obtain ⟨call, last, kind⟩ := ih same
    refine ⟨call, ?_, kind⟩
    rw [List.getLast?_append, last]
    rfl
  | stopped polled other =>
    cases polled with
    | accepted | waiting => cases same
    | failed busy different => exact ⟨_, List.getLast?_concat, .inl ⟨rfl, different⟩⟩
    | timedOut busy late => exact ⟨_, List.getLast?_concat, .inr ⟨rfl, late⟩⟩

/-- A mistaken reply ends a submission. -/
theorem mistaken (submission : Submission world cmdBuf left outcome calls) (member : call ∈ calls)
    (mistaken : call.reply.isMistaken) :
    outcome = some false ∧ calls.getLast? = some call ∧ call.reply = .failed world.errno := by
  induction submission with
  | finished => cases member
  | accepted polled _ ih =>
    cases polled with
    | accepted busy =>
      rcases List.mem_append.mp member with first | later
      · rcases List.mem_append.mp first with inFront | isLast
        · exact (busy.not_mistaken call inFront mistaken).elim
        · rw [List.mem_singleton.mp isLast] at mistaken
          exact mistaken.elim
      · obtain ⟨ended, last, reply⟩ := ih later
        refine ⟨ended, ?_, reply⟩
        rw [List.getLast?_append, last]
        rfl
  | stopped polled other =>
    cases polled with
    | accepted => exact (other rfl).elim
    | waiting busy => exact (busy.not_mistaken call member mistaken).elim
    | failed busy =>
      rcases List.mem_append.mp member with inFront | isLast
      · exact (busy.not_mistaken call inFront mistaken).elim
      · rw [List.mem_singleton.mp isLast]
        exact ⟨rfl, List.getLast?_concat, rfl⟩
    | timedOut busy =>
      rcases List.mem_append.mp member with inFront | isLast
      · exact (busy.not_mistaken call inFront mistaken).elim
      · rw [List.mem_singleton.mp isLast] at mistaken
        exact (busy_not_mistaken mistaken).elim

end Submission

/-- The world in front of a submission. -/
def SubmitWorld.start (replies : List IoctlReply) (clock : Nat → Nat) : SubmitWorld := ⟨replies, clock, 0, [], 0⟩

theorem submitWithWait_submission {replies : List IoctlReply} {clock : Nat → Nat} {cmdBuffers : Nat}
    (positive : 0 < cmdBuffers)
    (run : (SubmitWorld.start replies clock).submitWithWait cmdBuffers = (outcome, next)) :
    Submission next 0 cmdBuffers outcome next.calls := by
  rw [SubmitWorld.submitWithWait, if_neg (Nat.ne_of_gt positive)] at run
  obtain ⟨calls, called, submission⟩ := SubmitWorld.submitEach_submission run
  rw [called]
  exact submission

/-- A submission is right exactly when there is something to submit and the kernel neither reports an
interrupted call nor a lost device. -/
theorem submission_right_iff (replies : List IoctlReply) (clock : Nat → Nat) (cmdBuffers : Nat) :
    SubmitsRight cmdBuffers ((SubmitWorld.start replies clock).submitWithWait cmdBuffers).1
        ((SubmitWorld.start replies clock).submitWithWait cmdBuffers).2 ↔
      0 < cmdBuffers ∧ ∀ call ∈ ((SubmitWorld.start replies clock).submitWithWait cmdBuffers).2.calls,
        ¬ call.reply.isMistaken := by
  generalize run : (SubmitWorld.start replies clock).submitWithWait cmdBuffers = result
  obtain ⟨outcome, world⟩ := result
  simp only
  constructor
  · intro right
    have positive : 0 < cmdBuffers := by
      apply Nat.pos_of_ne_zero
      rintro rfl
      cases run
      exact absurd ((right.success nofun).mpr rfl) (by decide)
    have submission := submitWithWait_submission positive run
    refine ⟨positive, fun call member mistaken => ?_⟩
    obtain ⟨rfl, last, reply⟩ := submission.mistaken member mistaken
    have unharmed := right.interrupted rfl call last
    rw [reply] at mistaken unharmed
    rcases mistaken with interrupted | again | lost
    · exact unharmed.1 (congrArg IoctlReply.failed interrupted)
    · exact unharmed.2 (congrArg IoctlReply.failed again)
    · have reported := right.lost rfl call last world.errno reply lost
      rw [lost] at reported
      exact absurd reported (by decide)
  · rintro ⟨positive, unmistaken⟩
    have submission := submitWithWait_submission positive run
    constructor
    case ordered =>
      intro front call back split
      have ordered := submission.ordered
      rw [split] at ordered
      exact ordered.split.trans (Nat.zero_add _)
    case success => exact submission.success
    case interrupted =>
      rintro rfl call last
      have safe := unmistaken call (List.mem_of_getLast? last)
      constructor
      · intro interrupted
        rw [interrupted] at safe
        exact safe (.inl rfl)
      · intro again
        rw [again] at safe
        exact safe (.inr (.inl rfl))
    case polled =>
      rintro rfl call last busy
      obtain ⟨ending, same, kind⟩ := submission.failed
      obtain rfl := Option.some.inj (last.symm.trans same)
      rcases kind with ⟨reply, other⟩ | ⟨-, late⟩
      · exact (other (IoctlReply.failed.inj (reply.symm.trans busy))).elim
      · exact late
    case lost =>
      rintro rfl call last errno reply lost
      have safe := unmistaken call (List.mem_of_getLast? last)
      rw [reply] at safe
      exact (safe (.inr (.inr lost))).elim

/-- A signal arrives during the second submission. -/
theorem interrupted_submission_fails :
    ¬ SubmitsRight 2 ((SubmitWorld.start [.accepted, .failed EINTR, .accepted] id).submitWithWait 2).1
      ((SubmitWorld.start [.accepted, .failed EINTR, .accepted] id).submitWithWait 2).2 := by
  have run : (SubmitWorld.start [.accepted, .failed EINTR, .accepted] id).submitWithWait 2 =
      (some false, ⟨[.accepted], id, 2, [⟨0, 0, .accepted⟩, ⟨1, 1, .failed EINTR⟩], EINTR⟩) := by
    simp [SubmitWorld.submitWithWait, SubmitWorld.submitEach, SubmitWorld.submitUntilReply_round,
      SubmitWorld.doIoctl_eq, SubmitWorld.osiIoctl, SubmitWorld.now, SubmitWorld.start, EINTR, EBUSY]
  rw [run]
  intro right
  exact (right.interrupted rfl _ rfl).1 rfl

/-- The answer to the submission of one command buffer that the replies from some call on amount to. -/
def answerOf : List IoctlReply → SubmitAnswer
  | [] => ⟨0, .accepted⟩
  | .accepted :: _ => ⟨0, .accepted⟩
  | .failed errno :: rest =>
    if errno ≠ EBUSY then ⟨0, .failed errno⟩
    else if rest = [] then ⟨0, .timedOut errno⟩
    else ⟨(answerOf rest).busyReplies + 1, (answerOf rest).outcome⟩

theorem answerOf_busy {rest : List SubmitCall} (busy : BusyOnly cmdBuf since front) (more : rest ≠ []) :
    answerOf ((front ++ rest).map SubmitCall.reply) =
      ⟨front.length + (answerOf (rest.map SubmitCall.reply)).busyReplies,
        (answerOf (rest.map SubmitCall.reply)).outcome⟩ := by
  induction front with
  | nil => simp
  | cons first others ih =>
    obtain ⟨same, fewer⟩ := List.forall_mem_cons.mp busy
    subst same
    have filled : (others ++ rest).map SubmitCall.reply ≠ [] := by simp [more]
    rw [List.cons_append, List.map_cons, answerOf, if_neg (by simp), if_neg filled, ih fewer, List.length_cons]
    simp only [SubmitAnswer.mk.injEq, and_true]
    omega

theorem submitUntilReply_refused (queue : VPUDeviceQueueManaged) (cmdBuf : VPUCommandBuffer)
    (ctx : VPUDeviceContext) {errno : Int}
    (refused : (ctx.drvApi.commandQueueSubmit ctx.calls.length).outcome = .failed errno ∨
      (ctx.drvApi.commandQueueSubmit ctx.calls.length).outcome = .timedOut errno) :
    (queue.submitUntilReply cmdBuf ctx).1 = false ∧ (queue.submitUntilReply cmdBuf ctx).2.2.errno = errno := by
  rw [VPUDeviceQueueManaged.submitUntilReply]
  rcases refused with refused | refused <;> simp [refused]

/-- The submission by whole answers ends like the one by single replies. -/
theorem submitEach_refines {world : SubmitWorld} {left : Nat} {success : Bool} {calls : List SubmitCall}
    (submission : Submission world cmdBuf left (some success) calls) (queue : VPUDeviceQueueManaged)
    (ctx : VPUDeviceContext) (cmdBufs : List VPUCommandBuffer) (count : cmdBufs.length = left)
    (answers : ∀ position, position < calls.length → ctx.drvApi.commandQueueSubmit (ctx.calls.length + position) =
      answerOf ((calls.drop position).map SubmitCall.reply)) :
    (queue.submitEach ctx cmdBufs).1 = success ∧
      (success = false → ∀ call ∈ calls.getLast?, ∀ errno, call.reply = .failed errno →
        (queue.submitEach ctx cmdBufs).2.2.errno = errno) := by
  generalize same : some success = outcome at submission
  induction submission generalizing ctx cmdBufs with
  | finished =>
    cases same
    obtain rfl := List.eq_nil_of_length_eq_zero count
    exact ⟨rfl, nofun⟩
  | @accepted cmdBuf since calls left outcome rest polled later ih =>
    obtain ⟨first, others, rfl⟩ := List.exists_cons_of_length_eq_add_one count
    cases polled with
    | @accepted front busy =>
      have answer := answers 0 (by simp)
      rw [Nat.add_zero, List.drop_zero, List.append_assoc, answerOf_busy busy (by simp)] at answer
      obtain ⟨final, kernel, made⟩ := queue.submitUntilReply_requests first ctx
      rw [answer] at final made
      have taken := final.mpr rfl
      rw [VPUDeviceQueueManaged.submitEach]
      generalize queue.submitUntilReply first ctx = tried at taken kernel made
      obtain ⟨accepted, submitted, next⟩ := tried
      simp only at taken kernel made
      subst taken
      have remaining : ∀ position, position < rest.length →
          next.drvApi.commandQueueSubmit (next.calls.length + position) =
            answerOf ((rest.drop position).map SubmitCall.reply) := by
        intro position inside
        have shifted := answers ((front ++ [(⟨cmdBuf, since, .accepted⟩ : SubmitCall)]).length + position)
          (by simp only [List.length_append]; omega)
        rw [List.drop_length_add_append] at shifted
        rw [kernel, made, ← shifted]
        congr 1
        simp only [List.cons_append, List.nil_append, List.map_cons, answerOf, List.length_append,
          List.length_singleton]
        omega
      obtain ⟨result, errors⟩ := ih next others (by simpa using count) remaining same
      refine ⟨result, fun failed call last errno reply => ?_⟩
      rw [List.getLast?_append, Option.mem_def] at last
      cases ends : rest.getLast? with
      | some final => exact errors failed call (by rw [ends] at last ⊢; exact last) errno reply
      | none =>
        rw [ends, Option.none_or, List.getLast?_concat] at last
        rw [← Option.some.inj last] at reply
        cases reply
  | @stopped cmdBuf since outcome calls left polled other =>
    obtain ⟨first, others, rfl⟩ := List.exists_cons_of_length_eq_add_one count
    have refused : ∀ errno : Nat, calls.getLast? = some ⟨cmdBuf, since, .failed errno⟩ → success = false →
        ((ctx.drvApi.commandQueueSubmit ctx.calls.length).outcome = .failed errno ∨
          (ctx.drvApi.commandQueueSubmit ctx.calls.length).outcome = .timedOut errno) →
        (queue.submitEach ctx (first :: others)).1 = success ∧
          (success = false → ∀ call ∈ calls.getLast?, ∀ errno, call.reply = .failed errno →
            (queue.submitEach ctx (first :: others)).2.2.errno = errno) := by
      intro errno last failed answered
      obtain ⟨final, kept⟩ := submitUntilReply_refused queue first ctx answered
      rw [VPUDeviceQueueManaged.submitEach]
      generalize queue.submitUntilReply first ctx = tried at final kept
      obtain ⟨accepted, submitted, next⟩ := tried
      simp only at final kept
      subst final
      refine ⟨failed.symm, fun _ call ending other reply => ?_⟩
      rw [← Option.some.inj (last.symm.trans ending)] at reply
      cases reply
      exact kept
    have answer := answers 0
    rw [Nat.add_zero, List.drop_zero] at answer
    cases polled with
    | accepted => exact (other rfl).elim
    | waiting => cases same
    | failed busy different =>
      rw [answerOf_busy busy (by simp)] at answer
      apply refused _ List.getLast?_concat (Option.some.inj same)
      simp [answer, answerOf, different]
    | timedOut busy late =>
      rw [answerOf_busy busy (by simp)] at answer
      apply refused _ List.getLast?_concat (Option.some.inj same)
      simp [answer, answerOf]

end NpuDriver
