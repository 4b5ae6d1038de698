import NpuDriver.Proof.JobShares
import NpuDriver.Proof.StreamLayout

/-! Closing a job: what a failure leaves behind, and how a success divides the commands. -/

namespace NpuDriver

open Library VPUCommandBuffer

/-- The same command, but for the address of its descriptor block. -/
def Readdressed (cmd patched : VPUCommand) : Prop :=
  patched = cmd ∨ ∃ address, patched = cmd.patchDescriptorAddress address

theorem Readdressed.refl (cmd : VPUCommand) : Readdressed cmd cmd := .inl rfl

theorem Readdressed.synchronize {cmd patched : VPUCommand} (same : Readdressed cmd patched) :
    patched.isSynchronizeCommand = cmd.isSynchronizeCommand := by
  rcases same with rfl | ⟨address, rfl⟩
  · rfl
  · unfold VPUCommand.patchDescriptorAddress
    split <;> rfl

theorem patchAddresses_readdressed (vpuAddr offset : Nat) (cmds : List VPUCommand) :
    List.Forall₂ Readdressed cmds (patchAddresses vpuAddr offset cmds) := by
  induction cmds generalizing offset with
  | nil => exact .nil
  | cons cmd rest ih =>
    refine .cons ?_ (ih _)
    rw [VPUCommand.patchedAt]
    split
    · exact .inr ⟨_, rfl⟩
    · exact .inl rfl

namespace VPUCommandBuffer

theorem addCommand_readdressed (cb : VPUCommandBuffer) (cmd : VPUCommand) (cmdOffset descOffset : Nat) :
    Readdressed cmd (cb.addCommand cmd cmdOffset descOffset).cmd := by
  rw [addCommand]
  split
  · exact .inl rfl
  · simp only
    split
    · split
      · exact .inl rfl
      · rw [addStream_cmd]
        exact .inr ⟨_, rfl⟩
    · rw [addStream_cmd]
      exact .inl rfl

theorem addCommands_readdressed (cb : VPUCommandBuffer) (cmds : List VPUCommand) (cmdOffset descOffset : Nat) :
    List.Forall₂ Readdressed cmds (cb.addCommands cmds cmdOffset descOffset).2 := by
  induction cmds generalizing cb cmdOffset descOffset with
  | nil => exact .nil
  | cons cmd rest ih =>
    rw [addCommands]
    split
    · exact pointwise_refl Readdressed.refl _
    · rename_i fenced _
      simp only
      split
      · exact .cons (addCommand_readdressed ..) (pointwise_refl Readdressed.refl rest)
      · exact .cons (addCommand_readdressed ..) (ih ..)

theorem allocateCommandBuffer_readdressed (ctx : VPUDeviceContext) (begin : Nat) (cmds : List VPUCommand) :
    List.Forall₂ Readdressed cmds (allocateCommandBuffer ctx begin cmds).2.1 := by
  rw [allocateCommandBuffer]
  split
  · exact pointwise_refl Readdressed.refl cmds
  · simp only
    split
    · exact pointwise_refl Readdressed.refl cmds
    · split
      · exact pointwise_refl Readdressed.refl cmds
      · rename_i cb _
        have added := cb.addCommands_readdressed cmds commandListOffset
          (getFwDataCacheAlign (commandListOffset + (commitSizes cmds + fenceSize)))
        split
        · rename_i patched failed
          rw [failed] at added
          exact added
        · rename_i filled _ _ patched succeeded
          rw [succeeded] at added
          exact added

end VPUCommandBuffer

namespace VPUJob

/-- Every command buffer can be allocated, one after the other. -/
def Allocates : VPUDeviceContext → Nat → List (List VPUCommand) → Prop
  | _, _, [] => True
  | ctx, position, share :: others =>
    (allocateCommandBuffer ctx position share).1.isSome = true ∧
      Allocates (allocateCommandBuffer ctx position share).2.2 (position + share.length) others

/-- A loop that meets a failure ends there. -/
theorem createCommandBuffers_failed {share : List VPUCommand} (others : List (List VPUCommand))
    (event : Option VPUBufferObject) (failed : (allocateCommandBuffer ctx position share).1 = none) :
    createCommandBuffers ctx position (share :: others) event =
      (false, [], (allocateCommandBuffer ctx position share).2.1 ++ others.flatten,
        (allocateCommandBuffer ctx position share).2.2) := by
  rw [createCommandBuffers]
  rcases answer : allocateCommandBuffer ctx position share with ⟨none | cb, patched, created⟩
  · rfl
  · rw [answer] at failed
    cases failed

theorem createCommandBuffers_success (ctx : VPUDeviceContext) (position : Nat) (shares : List (List VPUCommand))
    (event : Option VPUBufferObject) :
    (createCommandBuffers ctx position shares event).1 = true ↔ Allocates ctx position shares := by
  induction shares generalizing ctx position event with
  | nil => exact ⟨fun _ => trivial, fun _ => rfl⟩
  | cons share others ih =>
    rw [Allocates]
    rcases answer : allocateCommandBuffer ctx position share with ⟨none | cb, patched, created⟩
    · rw [createCommandBuffers_failed others event (by rw [answer])]
      simp
    · obtain ⟨signalling, next, -, round⟩ := createCommandBuffers_cons others answer event
      rw [round]
      simp only [Option.isSome_some, true_and]
      exact ih created (position + share.length) next

/-- A loop that fails has made no command buffer exactly when it failed at the first one. -/
theorem createCommandBuffers_empty {share : List VPUCommand} (others : List (List VPUCommand))
    (event : Option VPUBufferObject) :
    (createCommandBuffers ctx position (share :: others) event).2.1 = [] ↔
      (allocateCommandBuffer ctx position share).1 = none := by
  rcases answer : allocateCommandBuffer ctx position share with ⟨none | cb, patched, created⟩
  · rw [createCommandBuffers_failed others event (by rw [answer])]
    simp
  · obtain ⟨signalling, next, -, round⟩ := createCommandBuffers_cons others answer event
    rw [round]
    simp

theorem createCommandBuffers_readdressed (ctx : VPUDeviceContext) (position : Nat)
    (shares : List (List VPUCommand)) (event : Option VPUBufferObject) :
    List.Forall₂ Readdressed shares.flatten (createCommandBuffers ctx position shares event).2.2.1 := by
  induction shares generalizing ctx position event with
  | nil => exact .nil
  | cons share others ih =>
    have patched := allocateCommandBuffer_readdressed ctx position share
    rw [List.flatten_cons]
    rcases answer : allocateCommandBuffer ctx position share with ⟨none | cb, rest⟩ <;> rw [answer] at patched
    · rw [createCommandBuffers_failed others event (by rw [answer]), answer]
      exact List.rel_append patched (pointwise_refl Readdressed.refl _)
    · obtain ⟨signalling, next, -, round⟩ := createCommandBuffers_cons others answer event
      rw [round]
      exact List.rel_append patched (ih ..)

/-- The shares but the last end in their only synchronize command, the last one has none in front of its end. -/
def EndsSynchronized : List (List VPUCommand) → Prop
  | [] => True
  | share :: others =>
    (∃ front last, share = front ++ [last] ∧ (∀ cmd ∈ front, cmd.isSynchronizeCommand = false) ∧
      (others ≠ [] → last.isSynchronizeCommand = true)) ∧ EndsSynchronized others

theorem scheduleAll_endsSynchronized (commands : List VPUCommand) : EndsSynchronized (scheduleAll commands) := by
  induction commands with
  | nil => trivial
  | cons cmd rest ih =>
    rw [scheduleAll]
    split
    · rename_i synchronize
      exact ⟨⟨[], cmd, rfl, List.forall_mem_nil _, fun _ => synchronize⟩, ih⟩
    · rename_i plain
      rw [Bool.not_eq_true] at plain
      split
      · exact ⟨⟨[], cmd, rfl, List.forall_mem_nil _, fun others => absurd rfl others⟩, trivial⟩
      · rename_i share others split_
        rw [split_] at ih
        obtain ⟨⟨front, last, rfl, before, ending⟩, later⟩ := ih
        refine ⟨⟨cmd :: front, last, rfl, ?_, ending⟩, later⟩
        exact List.forall_mem_cons.mpr ⟨plain, before⟩

theorem EndsSynchronized.readdressed {shares parts : List (List VPUCommand)} (ends : EndsSynchronized shares)
    (same : List.Forall₂ (List.Forall₂ Readdressed) shares parts) : EndsSynchronized parts := by
  induction same with
  | nil => trivial
  | @cons share part shares parts head tail ih =>
    obtain ⟨⟨front, last, rfl, before, ending⟩, later⟩ := ends
    refine ⟨?_, ih later⟩
    obtain ⟨patched, cmd, rfl, front_same, same⟩ := pointwise_snoc head
    refine ⟨patched, cmd, rfl, fun other member => ?_, fun others => ?_⟩
    · obtain ⟨original, present, kept⟩ := exists_partner front_same other member
      rw [kept.synchronize]
      exact before original present
    · rw [same.synchronize]
      apply ending
      rintro rfl
      cases tail
      exact others rfl

end VPUJob

/-- What the firmware reads from each of the command buffers: a wait for the buffer in front of it, its own
commands, and a signal of its own fence where another buffer follows. -/
def LinkedBuffers (ctx : VPUDeviceContext) (commands : List VPUCommand) :
    Option VPUBufferObject → List VPUCommandBuffer → Prop
  | _, [] => True
  | event, cb :: rest =>
    cb.readCommands = some ((headCommands ctx (event.map (·, false)) ++ cb.commandsOf commands ++
      [closingCommand ctx cb.buffer (!rest.isEmpty)]).map VPUCommand.getCommitStream) ∧
      LinkedBuffers ctx commands (some cb.buffer) rest

theorem linkedBuffers_created (ctx : VPUDeviceContext) (created : Nat) (commands : List VPUCommand)
    (event : Option VPUBufferObject) (cmdBuffers : List VPUCommandBuffer) :
    LinkedBuffers { ctx with created := created } commands event cmdBuffers ↔
      LinkedBuffers ctx commands event cmdBuffers := by
  induction cmdBuffers generalizing event with
  | nil => exact Iff.rfl
  | cons cb rest ih =>
    apply and_congr _ (ih _)
    cases event <;> exact Iff.rfl

namespace VPUCommandBuffer

/-- The first patch of `createCommandBuffer`. -/
def waitingFor (cb : VPUCommandBuffer) (ctx : VPUDeviceContext) : Option VPUBufferObject → VPUCommandBuffer
  | none => cb
  | some bo => (cb.addWaitAtHead ctx (some bo) false).2

/-- The two patches of `createCommandBuffer`. -/
def linked (cb : VPUCommandBuffer) (ctx : VPUDeviceContext) (event : Option VPUBufferObject) (last : Bool) :
    VPUCommandBuffer :=
  if last then cb.waitingFor ctx event else (cb.waitingFor ctx event).addSelfSignalAtTail.2

theorem Layout.waitingFor {cb : VPUCommandBuffer} {cmds : List VPUCommand} (layout : Layout ctx cb cmds none false)
    {event : Option VPUBufferObject} (room : ∀ bo ∈ event, fenceValueOffset < bo.allocSize) :
    Layout ctx (cb.waitingFor ctx event) cmds (event.map (·, false)) false := by
  cases event with
  | none => exact layout
  | some bo =>
    have start := descriptorStart_le cmds
    have fits : commandListOffset ≤ cb.buffer.allocSize := by
      rw [layout.allocSize]
      omega
    have waits := layout.addWaitAtHead (some bo) false
    rw [addWaitAtHead_some ctx false layout.mapped fits (room bo rfl)] at waits
    rw [VPUCommandBuffer.waitingFor, addWaitAtHead_some ctx false layout.mapped fits (room bo rfl)]
    exact waits

theorem Layout.linked {cb : VPUCommandBuffer} {cmds : List VPUCommand} (layout : Layout ctx cb cmds none false)
    {event : Option VPUBufferObject} (room : ∀ bo ∈ event, fenceValueOffset < bo.allocSize) (last : Bool) :
    Layout ctx (cb.linked ctx event last) cmds (event.map (·, false)) (!last) := by
  have waiting := layout.waitingFor room
  cases last with
  | true => exact waiting
  | false => exact waiting.addSelfSignalAtTail.2

theorem linked_patched (cb : VPUCommandBuffer) (ctx : VPUDeviceContext) (event : Option VPUBufferObject) (last : Bool) :
    cb.Patched (cb.linked ctx event last) := by
  apply VPUJob.Linked.patched
  refine ⟨cb.waitingFor ctx event, ?_, ?_⟩
  · cases event with
    | none => exact .inl rfl
    | some bo => exact .inr ⟨bo, rfl⟩
  · cases last with
    | true => exact .inl rfl
    | false => exact .inr rfl

end VPUCommandBuffer

namespace VPUJob

theorem createCommandBuffers_round {share : List VPUCommand} (others : List (List VPUCommand))
    {cb : VPUCommandBuffer} {patched : List VPUCommand}
    (allocated : allocateCommandBuffer ctx position share = (some cb, patched, created))
    (event : Option VPUBufferObject) :
    createCommandBuffers ctx position (share :: others) event =
      ((createCommandBuffers created (position + share.length) others
          (if others = [] then event else some cb.buffer)).1,
        cb.linked ctx event (decide (others = [])) ::
          (createCommandBuffers created (position + share.length) others
            (if others = [] then event else some cb.buffer)).2.1,
        patched ++ (createCommandBuffers created (position + share.length) others
          (if others = [] then event else some cb.buffer)).2.2.1,
        (createCommandBuffers created (position + share.length) others
          (if others = [] then event else some cb.buffer)).2.2.2) := by
  conv_lhs => rw [createCommandBuffers]
  simp only [allocated, VPUCommandBuffer.linked, decide_eq_true_eq]
  cases event <;> rfl

/-- The command buffers of a loop that succeeds: their shares make up the commands in order, and each is linked to
the one in front of it. -/
theorem createCommandBuffers_linked {shares : List (List VPUCommand)} {cmdBuffers : List VPUCommandBuffer}
    {commands : List VPUCommand} {event : Option VPUBufferObject}
    (room : ∀ bo ∈ event, fenceValueOffset < bo.allocSize)
    (success : createCommandBuffers ctx position shares event = (true, cmdBuffers, commands, next))
    {front : List VPUCommand} (behind : front.length = position) :
    (cmdBuffers.map fun cb => cb.commandsOf (front ++ commands)).flatten = commands ∧
      List.Forall₂ (List.Forall₂ Readdressed) shares
        (cmdBuffers.map fun cb => cb.commandsOf (front ++ commands)) ∧
      LinkedBuffers ctx (front ++ commands) event cmdBuffers := by
  induction shares generalizing ctx position event cmdBuffers commands next front with
  | nil =>
    cases success
    exact ⟨rfl, .nil, trivial⟩
  | cons share others ih =>
    rcases answer : allocateCommandBuffer ctx position share with ⟨none | cb, patched, created⟩
    · rw [createCommandBuffers_failed others event (by rw [answer])] at success
      cases success
    · rw [createCommandBuffers_round others answer event] at success
      obtain ⟨patched_eq, layout, -, created_eq, frame, -⟩ := allocateCommandBuffer_some answer
      have linked := layout.linked room (decide (others = []))
      have kept := cb.linked_patched ctx event (decide (others = []))
      generalize cb.linked ctx event (decide (others = [])) = signalling at success linked kept
      have same : List.Forall₂ Readdressed share patched := patched_eq ▸ patchAddresses_readdressed ..
      have length : patched.length = share.length := same.length_eq.symm
      generalize event_eq : (if others = [] then event else some cb.buffer) = following at success
      generalize loop : createCommandBuffers created (position + share.length) others following = result at success
      obtain ⟨finished, buffers, tail, final⟩ := result
      simp only [Prod.mk.injEq] at success
      obtain ⟨rfl, rfl, rfl, -⟩ := success
      have following_room : ∀ bo ∈ following, fenceValueOffset < bo.allocSize := by
        have start := descriptorStart_le share
        have size := layout.allocSize
        simp only [commandListOffset] at start
        intro bo member
        rw [← event_eq] at member
        split at member
        · exact room bo member
        · obtain rfl := Option.some.inj member
          simp only [fenceValueOffset]
          omega
      obtain ⟨whole, parts, chain⟩ := ih following_room loop
        (show (front ++ patched).length = _ by rw [List.length_append, length, behind])
      have own : signalling.commandsOf (front ++ (patched ++ tail)) = patched := by
        rw [VPUCommandBuffer.commandsOf, kept.commandsBegin, kept.commandsEnd, frame.commandsBegin, frame.commandsEnd]
        simp only [VPUCommandBuffer.new]
        rw [List.drop_left' behind, Nat.add_sub_cancel_left]
        exact List.take_left' length
      rw [List.append_assoc] at whole parts chain
      refine ⟨?_, ?_, ?_, ?_⟩
      · rw [List.map_cons, List.flatten_cons, own, whole]
      · rw [List.map_cons, own]
        exact .cons same parts
      · have walk := linked.readCommands
        rw [own, walk, kept.buffer, ← patched_eq]
        have last : (!decide (others = [])) = !buffers.isEmpty := by
          cases others with
          | nil =>
            cases loop
            rfl
          | cons => cases parts_eq : buffers with
            | nil =>
              rw [parts_eq] at parts
              cases parts
            | cons => rfl
        rw [last]
      · rw [kept.buffer]
        rw [created_eq, linkedBuffers_created] at chain
        cases others with
        | nil =>
          cases loop
          trivial
        | cons =>
          rw [if_neg (List.cons_ne_nil _ _)] at event_eq
          rw [event_eq]
          exact chain

/-- A job that was closed over commands: its command buffers divide them in order, in shares that end in synchronize
commands, and each waits for the fence of the one in front of it. -/
structure ClosedOver (ctx : VPUDeviceContext) (commands : List VPUCommand) (job : VPUJob) : Prop where
  closed : job.closed = true
  commands : List.Forall₂ Readdressed commands job.commands
  whole : (job.cmdBuffers.map fun cb => cb.commandsOf job.commands).flatten = job.commands
  ends : EndsSynchronized (job.cmdBuffers.map fun cb => cb.commandsOf job.commands)
  linked : LinkedBuffers ctx job.commands none job.cmdBuffers

/-- After a failure the job is open, without command buffers, and has its commands. -/
def CloseRetries (ctx : VPUDeviceContext) (job : VPUJob) : Prop :=
  (job.closeCommands ctx).1 = false →
    (job.closeCommands ctx).2.1.closed = false ∧ (job.closeCommands ctx).2.1.cmdBuffers = [] ∧
      List.Forall₂ Readdressed job.commands (job.closeCommands ctx).2.1.commands

/-- After a failure the job is what it was. -/
def StripKeeps (ctx : VPUDeviceContext) (job : VPUJob) : Prop :=
  (job.stripInOrder ctx).1 = false →
    (job.stripInOrder ctx).2.1.closed = job.closed ∧
      (job.stripInOrder ctx).2.1.hasInOrderWorkload = job.hasInOrderWorkload ∧
      (job.stripInOrder ctx).2.1.cmdBuffers = job.cmdBuffers ∧
      (job.stripInOrder ctx).2.1.commands = job.commands

/-- After a success the job is closed over its commands, unless it was closed already. -/
def ClosePartitions (ctx : VPUDeviceContext) (job : VPUJob) : Prop :=
  ((job.closeCommands ctx).1 = true → job.closed = true ∧ job.closeCommands ctx = (true, job, ctx) ∨
      ClosedOver ctx job.commands (job.closeCommands ctx).2.1) ∧
    ((job.stripInOrder ctx).1 = true → ClosedOver ctx job.commands (job.stripInOrder ctx).2.1)

/-- A closed job can be built again; an open one has no command buffers, and if its first command buffer can be
allocated, so can the others. -/
def Rebuildable (ctx : VPUDeviceContext) (job : VPUJob) : Prop :=
  if job.closed then Allocates ctx 0 (scheduleAll job.commands)
  else
    job.cmdBuffers = [] ∧ ∀ share others, scheduleAll job.commands = share :: others →
      (allocateCommandBuffer ctx 0 share).1.isSome = true → Allocates ctx 0 (share :: others)

theorem closeCommands_closed {job : VPUJob} (closed : job.closed = true) (ctx : VPUDeviceContext) :
    job.closeCommands ctx = (true, job, ctx) := by
  rw [closeCommands, if_pos closed]

theorem closeCommands_dirty {job : VPUJob} (opened : job.closed = false) (dirty : job.cmdBuffers ≠ [])
    (ctx : VPUDeviceContext) : job.closeCommands ctx = (false, job, ctx) := by
  rw [closeCommands, opened, if_neg Bool.false_ne_true, if_pos dirty]

theorem closeCommands_clean {job : VPUJob} (opened : job.closed = false) (clean : job.cmdBuffers = [])
    (ctx : VPUDeviceContext) :
    job.closeCommands ctx =
      ((createCommandBuffers ctx 0 (scheduleAll job.commands) none).1,
        { job with
          commands := (createCommandBuffers ctx 0 (scheduleAll job.commands) none).2.2.1
          cmdBuffers := (createCommandBuffers ctx 0 (scheduleAll job.commands) none).2.1
          closed := (createCommandBuffers ctx 0 (scheduleAll job.commands) none).1 },
        (createCommandBuffers ctx 0 (scheduleAll job.commands) none).2.2.2) := by
  rw [closeCommands, opened, if_neg Bool.false_ne_true, if_neg (not_not.mpr clean)]

theorem closeCommands_closedOver {job : VPUJob} (opened : job.closed = false) (clean : job.cmdBuffers = [])
    (success : (job.closeCommands ctx).1 = true) : ClosedOver ctx job.commands (job.closeCommands ctx).2.1 := by
  have readdressed := createCommandBuffers_readdressed ctx 0 (scheduleAll job.commands) none
  rw [scheduleAll_flatten] at readdressed
  rw [closeCommands_clean opened clean] at success ⊢
  generalize loop : createCommandBuffers ctx 0 (scheduleAll job.commands) none = result at success readdressed
  obtain ⟨finished, cmdBuffers, commands, next⟩ := result
  simp only at success readdressed
  subst success
  have nothing : ([] : List VPUCommand).length = 0 := rfl
  obtain ⟨whole, parts, chain⟩ := createCommandBuffers_linked (fun _ member => by cases member) loop nothing
  exact ⟨rfl, readdressed, whole, (scheduleAll_endsSynchronized job.commands).readdressed parts, chain⟩

/-- `stripInOrder` closes the job again from its commands. -/
theorem stripInOrder_closed {job : VPUJob} (closed : job.closed = true) (ctx : VPUDeviceContext) :
    job.stripInOrder ctx =
      closeCommands { job with cmdBuffers := [], hasInOrderWorkload := false, closed := false } ctx := by
  rw [stripInOrder, closed]
  rfl

theorem stripInOrder_open {job : VPUJob} (opened : job.closed = false) (ctx : VPUDeviceContext) :
    job.stripInOrder ctx = (false, job, ctx) := by
  rw [stripInOrder, opened]
  rfl

theorem closePartitions (ctx : VPUDeviceContext) (job : VPUJob) : ClosePartitions ctx job := by
  constructor
  · intro success
    cases state : job.closed with
    | true => exact .inl ⟨rfl, closeCommands_closed state ctx⟩
    | false =>
      right
      apply closeCommands_closedOver state _ success
      by_contra dirty
      rw [closeCommands_dirty state dirty] at success
      cases success
  · intro success
    cases state : job.closed with
    | true =>
      rw [stripInOrder_closed state] at success ⊢
      exact @closeCommands_closedOver ctx
        { job with cmdBuffers := [], hasInOrderWorkload := false, closed := false } rfl rfl success
    | false =>
      rw [stripInOrder_open state] at success
      cases success

theorem closeRetries_open {job : VPUJob} (opened : job.closed = false) (ctx : VPUDeviceContext) :
    CloseRetries ctx job ↔ Rebuildable ctx job := by
  have readdressed := createCommandBuffers_readdressed ctx 0 (scheduleAll job.commands) none
  rw [scheduleAll_flatten] at readdressed
  rw [CloseRetries, Rebuildable, opened, if_neg Bool.false_ne_true]
  by_cases clean : job.cmdBuffers = []
  · have success := createCommandBuffers_success ctx 0 (scheduleAll job.commands) none
    rw [closeCommands_clean opened clean]
    simp only [clean, true_and]
    constructor
    · intro retries share others split_ first
      rw [← split_, ← success, ← Bool.not_eq_false]
      intro failed
      have empty := (retries failed).2.1
      rw [split_, createCommandBuffers_empty] at empty
      rw [empty] at first
      cases first
    · intro possible failed
      refine ⟨failed, ?_, readdressed⟩
      have impossible : ¬ Allocates ctx 0 (scheduleAll job.commands) := by
        rw [← success, failed]
        exact Bool.false_ne_true
      cases split_ : scheduleAll job.commands with
      | nil =>
        rw [split_] at impossible
        exact absurd trivial impossible
      | cons share others =>
        rw [createCommandBuffers_empty, ← Option.not_isSome_iff_eq_none]
        intro first
        rw [split_] at impossible
        exact impossible (possible share others split_ first)
  · rw [closeCommands_dirty opened clean]
    simp [clean]

theorem stripKeeps_closed {job : VPUJob} (closed : job.closed = true) (ctx : VPUDeviceContext) :
    StripKeeps ctx job ↔ Rebuildable ctx job := by
  have success := createCommandBuffers_success ctx 0 (scheduleAll job.commands) none
  rw [StripKeeps, Rebuildable, if_pos closed, stripInOrder_closed closed,
    @closeCommands_clean { job with cmdBuffers := [], hasInOrderWorkload := false, closed := false } rfl rfl ctx,
    ← success, closed]
  constructor
  · intro keeps
    rw [← Bool.not_eq_false]
    intro failed
    have still := (keeps failed).1
    simp only [failed] at still
    cases still
  · intro succeeded failed
    rw [succeeded] at failed
    cases failed

/-- Closing and stripping can be retried, and what they close is divided as it should be, if and only if the job is
rebuildable. -/
theorem close_retry (ctx : VPUDeviceContext) (job : VPUJob) :
    CloseRetries ctx job ∧ StripKeeps ctx job ∧ ClosePartitions ctx job ↔ Rebuildable ctx job := by
  have partitions := closePartitions ctx job
  cases state : job.closed with
  | true =>
    have retries : CloseRetries ctx job := by
      intro failed
      rw [closeCommands_closed state] at failed
      cases failed
    rw [stripKeeps_closed state]
    exact ⟨fun both => both.2.1, fun rebuildable => ⟨retries, rebuildable, partitions⟩⟩
  | false =>
    have keeps : StripKeeps ctx job := by
      intro _
      rw [stripInOrder_open state]
      exact ⟨rfl, rfl, rfl, rfl⟩
    rw [closeRetries_open state]
    exact ⟨fun both => both.1, fun rebuildable => ⟨rebuildable, keeps, partitions⟩⟩

/-- A context whose kernel grants only the first buffer. -/
def scarceContext : VPUDeviceContext :=
  { grantingContext [] with
    drvApi := { grantingKernel with
      createBuffer := fun count size => if count = 0 then grantingKernel.createBuffer count size else none } }

/-- A job of two shares: the signal of an event, and a barrier behind it. -/
def splitJob : VPUJob where
  commands :=
    [{ command := .fence VPU_CMD_FENCE_SIGNAL 4096 1, sType := .Synchronize, bufferObjects := []
       descriptor := none, cmdNeedsUpdate := false, sized := trivial },
      { command := .barrier, sType := .Generic, bufferObjects := [], descriptor := none
        cmdNeedsUpdate := false, sized := trivial }]
  cmdBuffers := []
  closed := false
  hasInOrderWorkload := false

/-- The first command buffer of a failed close stays and blocks the next close, and a failed strip leaves an open
job without its command buffers. -/
theorem failed_close_blocks :
    (splitJob.closeCommands scarceContext).1 = false ∧
      (splitJob.closeCommands scarceContext).2.1.cmdBuffers.length = 1 ∧
      ((splitJob.closeCommands scarceContext).2.1.closeCommands (grantingContext [])).1 = false ∧
      (splitJob.closeCommands (grantingContext [])).1 = true ∧
      ((splitJob.closeCommands (grantingContext [])).2.1.stripInOrder scarceContext).1 = false ∧
      ((splitJob.closeCommands (grantingContext [])).2.1.stripInOrder scarceContext).2.1.closed = false := by
  decide +kernel

end VPUJob

end NpuDriver
