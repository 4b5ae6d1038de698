import NpuDriver.Library.Pointwise
import NpuDriver.Proof.BufferAllocation
import NpuDriver.Proof.HandleEdits
import NpuDriver.Proof.Submission

/-! A job seen as a list of command buffers, each beside its own commands: the operations on jobs
act on these shares one by one. -/

namespace NpuDriver

open Library

/-- A command buffer and its commands. -/
structure Share where
  cmdBuffer : VPUCommandBuffer
  commands : List VPUCommand

def sharesOf (commands : List VPUCommand) (cmdBuffers : List VPUCommandBuffer) : List Share :=
  cmdBuffers.map fun cmdBuffer => ⟨cmdBuffer, cmdBuffer.commandsOf commands⟩

def VPUJob.shares (job : VPUJob) : List Share := sharesOf job.commands job.cmdBuffers

/-- The command buffers divide the commands between two positions among them. -/
def Divided : Nat → List VPUCommandBuffer → Nat → Prop
  | position, [], total => position = total
  | position, cmdBuffer :: rest, total =>
    cmdBuffer.commandsBegin = position ∧ position ≤ cmdBuffer.commandsEnd ∧
      Divided cmdBuffer.commandsEnd rest total

namespace Share

/-- `updateCommands` with the commands of the share. -/
def update (share : Share) (ctx : VPUDeviceContext) : Bool × Share × VPUDeviceContext :=
  match share.cmdBuffer.updateCommands share.commands ctx with
  | (success, cmdBuffer, commands, next) => (success, ⟨cmdBuffer, commands⟩, next)

/-- `updateOnSubmit` on the shares, up to the first one that fails. -/
def updateAll (ctx : VPUDeviceContext) : List Share → Bool × List Share × VPUDeviceContext
  | [] => (true, [], ctx)
  | share :: rest =>
    match share.update ctx with
    | (false, updated, next) => (false, updated :: rest, next)
    | (true, updated, next) =>
      match updateAll next rest with
      | (success, others, final) => (success, updated :: others, final)

/-- A condition on every share that an update reaches, in the context that it meets. -/
def EachUpdate (condition : Share → VPUDeviceContext → Prop) : VPUDeviceContext → List Share → Prop
  | _, [] => True
  | ctx, share :: rest =>
    condition share ctx ∧
      ((share.update ctx).1 = true → EachUpdate condition (share.update ctx).2.2 rest)

instance instDecidableEachUpdate (condition : Share → VPUDeviceContext → Prop)
    [decided : ∀ share ctx, Decidable (condition share ctx)] :
    (ctx : VPUDeviceContext) → (shares : List Share) → Decidable (EachUpdate condition ctx shares)
  | _, [] => instDecidableTrue
  | ctx, share :: rest =>
    have := instDecidableEachUpdate condition (share.update ctx).2.2 rest
    inferInstanceAs (Decidable (condition share ctx ∧
      ((share.update ctx).1 = true → EachUpdate condition (share.update ctx).2.2 rest)))

/-- What an update of one share keeps and establishes, it keeps and establishes of all. -/
theorem updateAll_each {condition : Share → VPUDeviceContext → Prop} {Kept Reached : Share → Prop}
    (step : ∀ share ctx, Kept share → condition share ctx → Kept (share.update ctx).2.1 ∧
      ((share.update ctx).1 = true → Reached (share.update ctx).2.1))
    {shares : List Share} (each : ∀ share ∈ shares, Kept share)
    (allowed : EachUpdate condition ctx shares) :
    (∀ share ∈ (updateAll ctx shares).2.1, Kept share) ∧
      ((updateAll ctx shares).1 = true → ∀ share ∈ (updateAll ctx shares).2.1, Reached share) := by
  induction shares generalizing ctx with
  | nil => simp [updateAll]
  | cons share rest ih =>
    obtain ⟨here, later⟩ := allowed
    obtain ⟨kept, reached⟩ := step share ctx (each share (List.mem_cons_self ..)) here
    have others : ∀ other ∈ rest, Kept other := fun other member =>
      each other (List.mem_cons_of_mem share member)
    unfold updateAll
    generalize result : share.update ctx = answer at kept reached later
    obtain ⟨success, updated, next⟩ := answer
    cases success with
    | false =>
      refine ⟨?_, nofun⟩
      intro other member
      rcases List.mem_cons.mp member with rfl | untouched
      · exact kept
      · exact others other untouched
    | true =>
      obtain ⟨keptRest, reachedRest⟩ := ih others (later rfl)
      refine ⟨?_, fun success => ?_⟩ <;> intro other member
      · rcases List.mem_cons.mp member with rfl | behind
        · exact kept
        · exact keptRest other behind
      · rcases List.mem_cons.mp member with rfl | behind
        · exact reached rfl
        · exact reachedRest success other behind

theorem updateAll_pointwise {R : Share → Share → Prop} (refl : ∀ share, R share share)
    (step : ∀ share ctx, R share (share.update ctx).2.1) (ctx : VPUDeviceContext) (shares : List Share) :
    List.Forall₂ R shares (updateAll ctx shares).2.1 := by
  induction shares generalizing ctx with
  | nil => exact .nil
  | cons share rest ih =>
    have head := step share ctx
    unfold updateAll
    generalize share.update ctx = answer at head
    obtain ⟨success, updated, next⟩ := answer
    cases success with
    | false => exact .cons head (pointwise_refl refl rest)
    | true => exact .cons head (ih next)

end Share

theorem replaceFrom_length {commands updated : List VPUCommand}
    (inside : position + updated.length ≤ commands.length) :
    (replaceFrom commands position updated).length = commands.length := by
  simp only [replaceFrom, List.length_append, List.length_take, List.length_drop]
  omega

theorem replaceFrom_take {commands : List VPUCommand} (updated : List VPUCommand) (inside : position ≤ commands.length) :
    (replaceFrom commands position updated).take position = commands.take position := by
  rw [replaceFrom, List.append_assoc, List.take_append_of_le_length (by simp [inside]), List.take_take,
    Nat.min_self]

theorem replaceFrom_drop {commands updated : List VPUCommand} (inside : position ≤ commands.length) :
    (replaceFrom commands position updated).drop (position + updated.length) =
      commands.drop (position + updated.length) := by
  have front : (commands.take position ++ updated).length = position + updated.length := by
    simp [inside]
  rw [replaceFrom, ← front, List.drop_left, front]

theorem replaceFrom_middle {commands : List VPUCommand} (updated : List VPUCommand) (inside : position ≤ commands.length) :
    ((replaceFrom commands position updated).drop position).take updated.length = updated := by
  have front : (commands.take position).length = position := by simp [inside]
  have dropped : (replaceFrom commands position updated).drop position =
      updated ++ commands.drop (position + updated.length) := by
    unfold replaceFrom
    rw [List.append_assoc]
    exact List.drop_left' front
  rw [dropped]
  exact List.take_left' rfl

theorem Divided.le (divided : Divided position cmdBuffers total) : position ≤ total := by
  induction cmdBuffers generalizing position with
  | nil => exact Nat.le_of_eq divided
  | cons cmdBuffer rest ih =>
    obtain ⟨-, grows, others⟩ := divided
    exact grows.trans (ih others)

/-- The commands before the first share do not matter. -/
theorem sharesOf_drop {before after : List VPUCommand} (divided : Divided position cmdBuffers total)
    (same : after.drop position = before.drop position) : sharesOf after cmdBuffers = sharesOf before cmdBuffers := by
  induction cmdBuffers generalizing position with
  | nil => rfl
  | cons cmdBuffer rest ih =>
    obtain ⟨rfl, grows, others⟩ := divided
    have later : after.drop cmdBuffer.commandsEnd = before.drop cmdBuffer.commandsEnd := by
      obtain ⟨length, sum⟩ := Nat.exists_eq_add_of_le grows
      rw [sum, ← List.drop_drop, ← List.drop_drop, same]
    have tail := ih others later
    simp only [sharesOf, List.map_cons, VPUCommandBuffer.commandsOf, same] at tail ⊢
    rw [tail]

/-- Every command behind the first position belongs to one of the command buffers. -/
theorem Divided.owner {commands : List VPUCommand} (divided : Divided position cmdBuffers commands.length)
    (member : cmd ∈ commands.drop position) : ∃ cmdBuffer ∈ cmdBuffers, cmd ∈ cmdBuffer.commandsOf commands := by
  induction cmdBuffers generalizing position with
  | nil =>
    have whole : position = commands.length := divided
    simp [whole] at member
  | cons cmdBuffer rest ih =>
    obtain ⟨rfl, grows, others⟩ := divided
    rw [← List.take_append_drop (cmdBuffer.commandsEnd - cmdBuffer.commandsBegin)
      (commands.drop cmdBuffer.commandsBegin), List.drop_drop, Nat.add_sub_cancel' grows] at member
    rcases List.mem_append.mp member with own | later
    · exact ⟨cmdBuffer, List.mem_cons_self .., own⟩
    · obtain ⟨other, present, owned⟩ := ih others later
      exact ⟨other, List.mem_cons_of_mem cmdBuffer present, owned⟩

theorem VPUCommandBuffer.commandsOf_take (cb : VPUCommandBuffer) (commands : List VPUCommand) :
    cb.commandsOf (commands.take cb.commandsEnd) = cb.commandsOf commands := by
  unfold commandsOf
  rw [List.drop_take, List.take_take, Nat.min_self]

theorem VPUCommandBuffer.commandsOf_length {cb : VPUCommandBuffer} {commands : List VPUCommand}
    (inside : cb.commandsEnd ≤ commands.length) :
    (cb.commandsOf commands).length = cb.commandsEnd - cb.commandsBegin := by
  simp only [commandsOf, List.length_take, List.length_drop]
  omega

/-- The loop of `updateOnSubmit` updates the shares. -/
theorem updateBuffers_shares (commands : List VPUCommand) (ctx : VPUDeviceContext)
    {cmdBuffers : List VPUCommandBuffer} (divided : Divided position cmdBuffers commands.length) :
    ∃ success updated final next, VPUJob.updateBuffers commands ctx cmdBuffers = (success, updated, final, next) ∧
      Share.updateAll ctx (sharesOf commands cmdBuffers) = (success, sharesOf final updated, next) ∧
      final.length = commands.length ∧ final.take position = commands.take position ∧
      Divided position updated commands.length := by
  induction cmdBuffers generalizing position commands ctx with
  | nil => exact ⟨true, [], commands, ctx, rfl, rfl, rfl, rfl, divided⟩
  | cons cmdBuffer rest ih =>
    obtain ⟨rfl, grows, others⟩ := divided
    have inside := others.le
    obtain ⟨success, scratchBuffer, cmds, next, step, -, refreshed, -⟩ :=
      cmdBuffer.updateCommands_plan (cmdBuffer.commandsOf commands) ctx
    have length : cmds.length = cmdBuffer.commandsEnd - cmdBuffer.commandsBegin := by
      rw [← refreshed.length_eq, VPUCommandBuffer.commandsOf_length inside]
    have behind : cmdBuffer.commandsBegin + cmds.length = cmdBuffer.commandsEnd := by omega
    have replaced_length : (replaceFrom commands cmdBuffer.commandsBegin cmds).length = commands.length :=
      replaceFrom_length (by omega)
    have replaced_take := replaceFrom_take cmds (grows.trans inside)
    have replaced_drop : (replaceFrom commands cmdBuffer.commandsBegin cmds).drop cmdBuffer.commandsEnd =
        commands.drop cmdBuffer.commandsEnd := by
      rw [← behind]
      exact replaceFrom_drop (grows.trans inside)
    have replaced_middle := replaceFrom_middle cmds (grows.trans inside)
    generalize cb_eq : (cmdBuffer.withScratchBuffer scratchBuffer).withHandles
      (Edit.applyAll (cmdBuffer.plannedEdits (cmdBuffer.commandsOf commands) ctx) cmdBuffer.bufferHandles) =
        cb at step
    have begin_eq : cb.commandsBegin = cmdBuffer.commandsBegin := by rw [← cb_eq]; rfl
    have end_eq : cb.commandsEnd = cmdBuffer.commandsEnd := by rw [← cb_eq]; rfl
    have own : cb.commandsOf (replaceFrom commands cmdBuffer.commandsBegin cmds) = cmds := by
      unfold VPUCommandBuffer.commandsOf
      rw [begin_eq, end_eq, ← length]
      exact replaced_middle
    generalize replaced_eq : replaceFrom commands cmdBuffer.commandsBegin cmds = replaced
      at replaced_length replaced_take replaced_drop own
    have share : Share.update ⟨cmdBuffer, cmdBuffer.commandsOf commands⟩ ctx = (success, ⟨cb, cmds⟩, next) := by
      simp only [Share.update, step]
    have front : sharesOf commands (cmdBuffer :: rest) =
        ⟨cmdBuffer, cmdBuffer.commandsOf commands⟩ :: sharesOf commands rest := rfl
    have untouched : sharesOf replaced rest = sharesOf commands rest := sharesOf_drop others replaced_drop
    cases success with
    | false =>
      refine ⟨false, cb :: rest, replaced, next, ?_, ?_, replaced_length, replaced_take, begin_eq,
        by rw [end_eq]; exact grows, by rw [end_eq]; exact others⟩
      · simp only [VPUJob.updateBuffers, step, replaced_eq]
      · rw [front, Share.updateAll, share]
        simp only [← untouched]
        rw [show sharesOf replaced (cb :: rest) = ⟨cb, cb.commandsOf replaced⟩ :: sharesOf replaced rest from rfl,
          own]
    | true =>
      obtain ⟨finished, updated, final, last, loop, shares, final_length, final_take, final_divided⟩ :=
        ih replaced next (by rw [replaced_length]; exact others)
      have kept : cb.commandsOf final = cmds := by
        rw [← cb.commandsOf_take final, end_eq, final_take, ← end_eq, cb.commandsOf_take, own]
      refine ⟨finished, cb :: updated, final, last, ?_, ?_, final_length.trans replaced_length, ?_, begin_eq,
        by rw [end_eq]; exact grows, by rw [end_eq, ← replaced_length]; exact final_divided⟩
      · simp only [VPUJob.updateBuffers, step, replaced_eq, loop]
      · rw [front, Share.updateAll, share]
        simp only [← untouched, shares]
        rw [show sharesOf final (cb :: updated) = ⟨cb, cb.commandsOf final⟩ :: sharesOf final updated from rfl,
          kept]
      · have nested := congrArg (List.take cmdBuffer.commandsBegin) final_take
        rw [List.take_take, List.take_take, Nat.min_eq_left grows] at nested
        exact nested.trans replaced_take

namespace VPUJob

/-- `updateOnSubmit` updates the shares of a job. -/
theorem updateOnSubmit_shares {job : VPUJob} (ctx : VPUDeviceContext)
    (divided : Divided 0 job.cmdBuffers job.commands.length) :
    ∃ success updated next, job.updateOnSubmit ctx = (success, updated, next) ∧
      Share.updateAll ctx job.shares = (success, updated.shares, next) ∧
      Divided 0 updated.cmdBuffers updated.commands.length ∧ updated.closed = job.closed ∧
      updated.hasInOrderWorkload = job.hasInOrderWorkload := by
  obtain ⟨success, updated, final, next, loop, shares, length, -, parts⟩ :=
    updateBuffers_shares job.commands ctx divided
  refine ⟨success, { job with commands := final, cmdBuffers := updated }, next, ?_, shares, ?_, rfl, rfl⟩
  · simp only [updateOnSubmit, loop]
  · rw [length]
    exact parts

/-- A property of every command buffer and its commands. -/
def Each (P : VPUCommandBuffer → List VPUCommand → Prop) (job : VPUJob) : Prop :=
  ∀ cmdBuffer ∈ job.cmdBuffers, P cmdBuffer (cmdBuffer.commandsOf job.commands)

theorem each_shares {job : VPUJob} {P : VPUCommandBuffer → List VPUCommand → Prop} :
    job.Each P ↔ ∀ share ∈ job.shares, P share.cmdBuffer share.commands := by
  simp [Each, shares, sharesOf]

end VPUJob

/-- A change of the command buffers of a job that leaves their commands alone. -/
def Revised (R : VPUCommandBuffer → VPUCommandBuffer → Prop) (before after : VPUCommandBuffer) : Prop :=
  after.commandsBegin = before.commandsBegin ∧ after.commandsEnd = before.commandsEnd ∧ R before after

/-- The address of a descriptor block does not matter to the buffers a command is associated with. -/
theorem patchAddresses_associated (vpuAddr offset : Nat) (cmds : List VPUCommand) :
    List.Forall₂ (fun cmd patched => patched.bufferObjects = cmd.bufferObjects ∧
      patched.isInference = cmd.isInference) cmds (patchAddresses vpuAddr offset cmds) := by
  induction cmds generalizing offset with
  | nil => exact .nil
  | cons cmd rest ih =>
    refine .cons ?_ (ih _)
    unfold VPUCommand.patchedAt VPUCommand.patchDescriptorAddress
    split
    · cases kind : cmd.command <;> simp [VPUCommand.isInference, kind]
    · exact ⟨rfl, rfl⟩

theorem Divided.revised {R : VPUCommandBuffer → VPUCommandBuffer → Prop}
    {before after : List VPUCommandBuffer} (divided : Divided position before total)
    (revised : List.Forall₂ (Revised R) before after) : Divided position after total := by
  induction revised generalizing position with
  | nil => exact divided
  | cons head _ ih =>
    obtain ⟨begins, ends, -⟩ := head
    obtain ⟨first, grows, others⟩ := divided
    exact ⟨begins.trans first, by rw [ends]; exact grows, by rw [ends]; exact ih others⟩

namespace VPUJob

theorem Each.revised {job next : VPUJob} {P Q : VPUCommandBuffer → List VPUCommand → Prop}
    {R : VPUCommandBuffer → VPUCommandBuffer → Prop} (each : job.Each P)
    (commands : next.commands = job.commands)
    (revised : List.Forall₂ (Revised R) job.cmdBuffers next.cmdBuffers)
    (keeps : ∀ before after cmds, R before after → P before cmds → Q after cmds) : next.Each Q := by
  intro after member
  obtain ⟨before, present, begins, ends, changed⟩ := exists_partner revised after member
  have same : after.commandsOf next.commands = before.commandsOf job.commands := by
    unfold VPUCommandBuffer.commandsOf
    rw [begins, ends, commands]
  rw [same]
  exact keeps before after _ changed (each before present)

/-- A new command buffer in its job: it may wait for the fence of the one before it and signal its own. -/
def Linked (ctx : VPUDeviceContext) (cb final : VPUCommandBuffer) : Prop :=
  ∃ waiting, (waiting = cb ∨ ∃ bo, waiting = (cb.addWaitAtHead ctx (some bo) false).2) ∧
    (final = waiting ∨ final = waiting.addSelfSignalAtTail.2)

theorem Linked.patched {cb final : VPUCommandBuffer} (linked : Linked ctx cb final) : cb.Patched final := by
  obtain ⟨waiting, head, tail⟩ := linked
  have waits : cb.Patched waiting := by
    rcases head with rfl | ⟨bo, rfl⟩
    · exact .refl _
    · exact cb.addWaitAtHead_patched ctx (some bo) false
  rcases tail with rfl | rfl
  · exact waits
  · exact waits.trans waiting.addSelfSignalAtTail_patched

/-- One round of the loop of `closeCommands` links the new command buffer. -/
theorem createCommandBuffers_cons {share : List VPUCommand} (others : List (List VPUCommand))
    {cb : VPUCommandBuffer} {patched : List VPUCommand}
    (allocated : VPUCommandBuffer.allocateCommandBuffer ctx position share = (some cb, patched, created))
    (event : Option VPUBufferObject) :
    ∃ signalling next, Linked ctx cb signalling ∧
      createCommandBuffers ctx position (share :: others) event =
        ((createCommandBuffers created (position + share.length) others next).1,
          signalling :: (createCommandBuffers created (position + share.length) others next).2.1,
          patched ++ (createCommandBuffers created (position + share.length) others next).2.2.1,
          (createCommandBuffers created (position + share.length) others next).2.2.2) := by
  cases event with
  | none =>
    cases others with
    | nil => exact ⟨cb, none, ⟨cb, .inl rfl, .inl rfl⟩, by simp only [createCommandBuffers, allocated, ↓reduceIte]⟩
    | cons next rest =>
      refine ⟨cb.addSelfSignalAtTail.2, some cb.buffer, ⟨cb, .inl rfl, .inr rfl⟩, ?_⟩
      conv_lhs => rw [createCommandBuffers]
      simp only [allocated, reduceCtorEq, ↓reduceIte]
  | some bo =>
    cases others with
    | nil =>
      exact ⟨(cb.addWaitAtHead ctx (some bo) false).2, some bo, ⟨_, .inr ⟨bo, rfl⟩, .inl rfl⟩,
        by simp only [createCommandBuffers, allocated, ↓reduceIte]⟩
    | cons next rest =>
      refine ⟨(cb.addWaitAtHead ctx (some bo) false).2.addSelfSignalAtTail.2, some cb.buffer,
        ⟨_, .inr ⟨bo, rfl⟩, .inr rfl⟩, ?_⟩
      conv_lhs => rw [createCommandBuffers]
      simp only [allocated, reduceCtorEq, ↓reduceIte]

/-- What a new command buffer has and keeps when it is linked, every command buffer of a closed job
has. -/
theorem createCommandBuffers_each {P : VPUCommandBuffer → List VPUCommand → Prop}
    {shares : List (List VPUCommand)}
    (built : ∀ share ∈ shares, ∀ ctx position cb patched next final,
      VPUCommandBuffer.allocateCommandBuffer ctx position share = (some cb, patched, next) →
        Linked ctx cb final → P final patched)
    {cmdBuffers : List VPUCommandBuffer} {commands : List VPUCommand}
    (success : createCommandBuffers ctx position shares event = (true, cmdBuffers, commands, next)) :
    Divided position cmdBuffers (position + commands.length) ∧
      ∀ front : List VPUCommand, front.length = position →
        ∀ cmdBuffer ∈ cmdBuffers, P cmdBuffer (cmdBuffer.commandsOf (front ++ commands)) := by
  induction shares generalizing ctx position event cmdBuffers commands next with
  | nil =>
    cases success
    exact ⟨rfl, nofun⟩
  | cons share others ih =>
    cases answer : VPUCommandBuffer.allocateCommandBuffer ctx position share with
    | mk result rest =>
      obtain ⟨patched, created⟩ := rest
      cases result with
      | none => simp [createCommandBuffers, answer] at success
      | some cb =>
        obtain ⟨signalling, following, linked, round⟩ := createCommandBuffers_cons others answer event
        have signalling_patched := linked.patched
        rw [round] at success
        simp only [Prod.mk.injEq] at success
        obtain ⟨finished, rfl, rfl, -⟩ := success
        obtain ⟨divided, each⟩ := ih (fun other member => built other (List.mem_cons_of_mem share member))
          (Prod.ext finished rfl)
        generalize (createCommandBuffers created (position + share.length) others following).2.1 = rest
          at divided each ⊢
        generalize (createCommandBuffers created (position + share.length) others following).2.2.1 = tail
          at divided each ⊢
        obtain ⟨patched_eq, -, -, -, frame, -⟩ := VPUCommandBuffer.allocateCommandBuffer_some answer
        have length : patched.length = share.length := by
          rw [patched_eq, ← (patchAddresses_associated _ _ share).length_eq]
        have begins : signalling.commandsBegin = position :=
          signalling_patched.commandsBegin.trans frame.commandsBegin
        have ends : signalling.commandsEnd = position + share.length :=
          signalling_patched.commandsEnd.trans frame.commandsEnd
        refine ⟨⟨begins, by omega, ?_⟩, ?_⟩
        · rw [ends, List.length_append, length, ← Nat.add_assoc]
          exact divided
        · intro front front_length cmdBuffer member
          rcases List.mem_cons.mp member with rfl | later
          · have own : cmdBuffer.commandsOf (front ++ (patched ++ tail)) = patched := by
              unfold VPUCommandBuffer.commandsOf
              rw [begins, ends, List.drop_left' front_length, Nat.add_sub_cancel_left]
              exact List.take_left' length
            rw [own]
            exact built share (List.mem_cons_self ..) ctx position cb patched created cmdBuffer answer linked
          · rw [← List.append_assoc]
            exact each (front ++ patched) (by simp [front_length, length]) cmdBuffer later

/-- The command buffers of a job that has just been closed. -/
theorem closeCommands_each {P : VPUCommandBuffer → List VPUCommand → Prop} {job : VPUJob}
    (opened : job.closed = false)
    (built : ∀ share ∈ scheduleAll job.commands, ∀ ctx position cb patched next final,
      VPUCommandBuffer.allocateCommandBuffer ctx position share = (some cb, patched, next) →
        Linked ctx cb final → P final patched)
    (success : (job.closeCommands ctx).1 = true) :
    Divided 0 (job.closeCommands ctx).2.1.cmdBuffers (job.closeCommands ctx).2.1.commands.length ∧
      (job.closeCommands ctx).2.1.Each P ∧ (job.closeCommands ctx).2.1.closed = true := by
  unfold closeCommands at success ⊢
  rw [opened] at success ⊢
  simp only [Bool.false_eq_true, ↓reduceIte] at success ⊢
  split at success
  · cases success
  · rename_i empty
    rw [if_neg empty]
    generalize result : createCommandBuffers ctx 0 (scheduleAll job.commands) none = answer at success
    obtain ⟨finished, cmdBuffers, commands, next⟩ := answer
    simp only at success ⊢
    subst success
    obtain ⟨divided, each⟩ := createCommandBuffers_each built result
    rw [Nat.zero_add] at divided
    exact ⟨divided, each [] rfl, rfl⟩

end VPUJob

end NpuDriver
