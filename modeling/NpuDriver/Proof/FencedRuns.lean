import NpuDriver.Library.SignalWord
import NpuDriver.Proof.DeviceFrame
import NpuDriver.Proof.FenceWords

/-! The command buffers of a job in submissions that overlap: a fence that is clear when its command buffer is
accepted orders the one behind it. -/

namespace NpuDriver

open Library VPUCommandBuffer

/-- What of a command buffer its fences depend on. -/
structure FenceFrame where
  address : Nat
  users : Nat

def VPUCommandBuffer.frame (cb : VPUCommandBuffer) : FenceFrame := ⟨cb.fenceAddress, cb.userCount⟩

/-- A command that raises no fence word of the frames. -/
def KeepsLow (frames : List FenceFrame) (bytes : List UInt8) : Prop :=
  ∀ fence, decodeFence bytes = some fence → fence.type ≠ VPU_CMD_FENCE_WAIT →
    (∃ frame ∈ frames, frame.address = fence.address) → fence.value < STATE_WAIT

/-- What the device reads of the command buffer at a position: its closing command is a signal of its own fence, if
another one follows, and in front of the user commands it waits for the fence before it. -/
structure Reads (frames : List FenceFrame) (index : Nat) (front : List (List UInt8)) (closing : List UInt8) : Prop where
  low : ∀ bytes ∈ front, KeepsLow frames bytes
  own : ∀ fence, decodeFence closing = some fence → frames[index]?.map FenceFrame.address = some fence.address
  signals : index + 1 < frames.length → ∃ frame, frames[index]? = some frame ∧
    decodeFence closing = some ⟨VPU_CMD_FENCE_SIGNAL, frame.address, STATE_DEVICE_SIGNAL⟩
  waits : ∀ before, index = before + 1 → ∃ frame wait second users, frames[before]? = some frame ∧
    decodeFence wait = some ⟨VPU_CMD_FENCE_WAIT, frame.address, STATE_WAIT⟩ ∧ front = wait :: second :: users ∧
    frames[index]?.map FenceFrame.users = some users.length

/-- The command buffer at a position, as far as its layout is the same in all submissions. -/
def LaidOut (ctx : VPUDeviceContext) (frames : List FenceFrame) (index : Nat) (cb : VPUCommandBuffer) : Prop :=
  ∃ cmds head signalled, Layout ctx cb cmds head signalled ∧ cmds.length = cb.userCount ∧
    (∀ cmd ∈ cmds, KeepsLow frames cmd.getCommitStream) ∧ (index + 1 < frames.length → signalled = true) ∧
    ∀ before, index = before + 1 → ∃ bo, head = some (bo, false) ∧
      frames[before]?.map FenceFrame.address = some ((bo.vpuAddr + fenceValueOffset) % 2 ^ 64)

theorem keepsLow_none {frames : List FenceFrame} {bytes : List UInt8} (other : decodeFence bytes = none) :
    KeepsLow frames bytes := by
  intro fence decoded
  rw [other] at decoded
  cases decoded

theorem decodeFence_fenceCommand (sType : ScheduleType) (bo : VPUBufferObject)
    (fence : type = VPU_CMD_FENCE_WAIT ∨ type = VPU_CMD_FENCE_SIGNAL) (bound : value < 2 ^ 64) :
    decodeFence (fenceCommand sType type bo value).getCommitStream =
      some ⟨type, (bo.vpuAddr + fenceValueOffset) % 2 ^ 64, value⟩ := by
  have decoded := @decodeFence_fence type (bo.vpuAddr + fenceValueOffset) value
    (fenceCommand sType type bo value) rfl fence
  rwa [Nat.mod_eq_of_lt bound] at decoded

theorem waitCommand_keepsLow (frames : List FenceFrame) (bo : VPUBufferObject) :
    KeepsLow frames (waitCommand bo).getCommitStream := by
  intro fence decoded store
  rw [waitCommand, decodeFence_fenceCommand .Generic bo (.inl rfl) (by decide)] at decoded
  cases decoded
  exact absurd rfl store

theorem secondCommand_keepsLow (frames : List FenceFrame) (ctx : VPUDeviceContext) (bo : VPUBufferObject)
    (resetFence : Bool) : KeepsLow frames (secondCommand ctx bo resetFence).getCommitStream := by
  cases resetFence with
  | false => exact keepsLow_none (decodeFence_nop ctx)
  | true =>
    intro fence decoded _ _
    have reset : decodeFence (resetFenceCommand bo).getCommitStream = some fence := decoded
    rw [resetFenceCommand, decodeFence_fenceCommand .Generic bo (.inr rfl) (by decide)] at reset
    cases reset
    exact (by decide : STATE_DEVICE_RESET < STATE_WAIT)

/-- The device reads a command buffer that is laid out, whatever the submissions have made of its other patches. -/
theorem LaidOut.reads {frames : List FenceFrame} {cb : VPUCommandBuffer} {index : Nat}
    (laidOut : LaidOut ctx frames index cb) (own : frames[index]? = some cb.frame) :
    ∃ front closing, cb.readCommands = some (front ++ [closing]) ∧ Reads frames index front closing := by
  obtain ⟨cmds, head, signalled, layout, count, low, internal, waits⟩ := laidOut
  have closing : ∀ fence, decodeFence (closingCommand ctx cb.buffer signalled).getCommitStream = some fence →
      signalled = true ∧ fence = ⟨VPU_CMD_FENCE_SIGNAL, cb.fenceAddress, STATE_DEVICE_SIGNAL⟩ := by
    intro fence decoded
    cases signalled with
    | false =>
      have nop : decodeFence (nopCommand ctx).getCommitStream = some fence := decoded
      rw [decodeFence_nop] at nop
      cases nop
    | true =>
      have signal : decodeFence (signalCommand cb.buffer).getCommitStream = some fence := decoded
      rw [signalCommand, decodeFence_fenceCommand .Synchronize cb.buffer (.inr rfl) (by decide)] at signal
      exact ⟨rfl, (Option.some.inj signal).symm⟩
  refine ⟨(headCommands ctx head).map VPUCommand.getCommitStream ++
    (patchAddresses cb.buffer.vpuAddr (descriptorStart cmds) cmds).map VPUCommand.getCommitStream,
    (closingCommand ctx cb.buffer signalled).getCommitStream, ?_, ?_, ?_, ?_, ?_⟩
  · rw [layout.readCommands, List.map_append, List.map_append]
    rfl
  · intro bytes member
    rcases List.mem_append.mp member with heading | user
    · obtain ⟨cmd, present, rfl⟩ := List.mem_map.mp heading
      cases head with
      | none => cases present
      | some wait =>
        rcases List.mem_cons.mp present with rfl | later
        · exact waitCommand_keepsLow frames wait.1
        · rw [List.mem_singleton.mp later]
          exact secondCommand_keepsLow frames ctx wait.1 wait.2
    · obtain ⟨patched, present, rfl⟩ := List.mem_map.mp user
      obtain ⟨cmd, original, same⟩ := exists_partner (patchAddresses_readdressed _ _ cmds) patched present
      intro fence decoded
      rw [same.decodeFence] at decoded
      exact low cmd original fence decoded
  · intro fence decoded
    rw [own, (closing fence decoded).2]
    rfl
  · intro follows
    refine ⟨cb.frame, own, ?_⟩
    rw [internal follows]
    exact decodeFence_fenceCommand .Synchronize cb.buffer (.inr rfl) (by decide)
  · rintro before rfl
    obtain ⟨bo, rfl, address⟩ := waits before rfl
    obtain ⟨frame, found, address⟩ := Option.map_eq_some_iff.mp address
    refine ⟨frame, (waitCommand bo).getCommitStream, (secondCommand ctx bo false).getCommitStream,
      (patchAddresses cb.buffer.vpuAddr (descriptorStart cmds) cmds).map VPUCommand.getCommitStream, found, ?_, rfl, ?_⟩
    · rw [address]
      exact decodeFence_fenceCommand .Generic bo (.inl rfl) (by decide)
    · rw [own, List.length_map, ← (patchAddresses_readdressed _ _ cmds).length_eq, count]
      rfl

theorem VPUCommandBuffer.Extends.frame {cb patched : VPUCommandBuffer} (extends_ : cb.Extends patched) :
    patched.frame = cb.frame := by
  rw [VPUCommandBuffer.frame, fenceAddress, userCount, extends_.buffer, extends_.commandsBegin, extends_.commandsEnd]
  rfl

theorem VPUCommandBuffer.Layout.release {cb : VPUCommandBuffer} {cmds : List VPUCommand}
    (layout : Layout ctx cb cmds head signalled) : Layout ctx cb.release cmds head signalled := by
  have same : cb.release.buffer = cb.buffer ∧ cb.release.image = cb.image := by
    unfold VPUCommandBuffer.release
    split <;> exact ⟨rfl, rfl⟩
  refine layout.patchHead same.1 (fun address _ => by rw [same.2]) ?_ ?_
  · rw [cmdOffset, same.2]
    exact layout.entry
  · rw [same.2]
    exact layout.sync

/-- What a patch may make of the command buffer at a position. -/
structure Eases (ctx : VPUDeviceContext) (frames : List FenceFrame) (index : Nat) (cb patched : VPUCommandBuffer) :
    Prop where
  frame : patched.frame = cb.frame
  laidOut : LaidOut ctx frames index patched
  lower : index + 1 < frames.length → STATE_WAIT ≤ patched.fenceValue → STATE_WAIT ≤ cb.fenceValue

namespace LaidOut

variable {ctx : VPUDeviceContext} {frames : List FenceFrame} {index : Nat} {cb : VPUCommandBuffer}

theorem refl (laidOut : LaidOut ctx frames index cb) : Eases ctx frames index cb cb := ⟨rfl, laidOut, fun _ => id⟩

/-- Only the first command buffer may be given another head, and a signal stays. -/
theorem patched {patched : VPUCommandBuffer} (laidOut : LaidOut ctx frames index cb) (frame : patched.frame = cb.frame)
    (layouts : ∀ cmds head signalled, Layout ctx cb cmds head signalled → ∃ head' signalled',
      Layout ctx patched cmds head' signalled' ∧ (index ≠ 0 → head' = head) ∧
        (signalled = true → signalled' = true)) : LaidOut ctx frames index patched := by
  obtain ⟨cmds, head, signalled, layout, count, low, internal, waits⟩ := laidOut
  obtain ⟨head', signalled', kept, heads, signals⟩ := layouts cmds head signalled layout
  have users : patched.userCount = cb.userCount := congrArg FenceFrame.users frame
  refine ⟨cmds, head', signalled', kept, count.trans users.symm, low, fun follows => signals (internal follows), ?_⟩
  rintro before rfl
  rw [heads (Nat.succ_ne_zero before)]
  exact waits before rfl

theorem addWaitAtHead (laidOut : LaidOut ctx frames 0 cb) (waitFor : Option VPUBufferObject) :
    Eases ctx frames 0 cb (cb.addWaitAtHead ctx waitFor true).2 := by
  have frame := (cb.addWaitAtHead_extends ctx waitFor true).frame
  refine ⟨frame, ?_, ?_⟩
  · refine laidOut.patched frame fun cmds head signalled layout => ?_
    exact ⟨_, signalled, layout.addWaitAtHead waitFor true, fun other => absurd rfl other, id⟩
  · obtain ⟨cmds, head, signalled, layout, -⟩ := laidOut
    rw [layout.addWaitAtHead_fenceValue waitFor true]
    exact fun _ => id

theorem addSelfSignalAtTail (laidOut : LaidOut ctx frames index cb) :
    Eases ctx frames index cb cb.addSelfSignalAtTail.2 := by
  have frame := cb.addSelfSignalAtTail_extends.frame
  refine ⟨frame, ?_, ?_⟩
  · refine laidOut.patched frame fun cmds head signalled layout => ?_
    exact ⟨head, true, layout.addSelfSignalAtTail.2, fun _ => rfl, fun _ => rfl⟩
  · obtain ⟨cmds, head, signalled, layout, -⟩ := laidOut
    rw [layout.addSelfSignalAtTail_fenceValue]
    exact fun _ => id

theorem useBusyWait (laidOut : LaidOut ctx frames index cb) : Eases ctx frames index cb cb.useBusyWait := by
  have frame := cb.useBusyWait_extends.frame
  refine ⟨frame, ?_, ?_⟩
  · refine laidOut.patched frame fun cmds head signalled layout => ?_
    exact ⟨head, true, layout.useBusyWait, fun _ => rfl, fun _ => rfl⟩
  · obtain ⟨cmds, head, signalled, layout, -⟩ := laidOut
    rw [layout.useBusyWait_fenceValue]
    intro _ raised
    exact absurd raised (by decide)

theorem stored (laidOut : LaidOut ctx frames index cb) (value : Nat) :
    LaidOut ctx frames index (cb.setFenceValue value) :=
  laidOut.patched rfl fun _ head signalled layout => ⟨head, signalled, layout.setFenceValue value, fun _ => rfl, id⟩

theorem setFenceValue (laidOut : LaidOut ctx frames index cb) {value : Nat}
    (low : index + 1 < frames.length → value < STATE_WAIT) : Eases ctx frames index cb (cb.setFenceValue value) := by
  refine ⟨rfl, laidOut.stored value, ?_⟩
  intro follows raised
  have small := low follows
  rw [cb.setFenceValue_fenceValue (by simp only [STATE_WAIT] at small; omega)] at raised
  omega

theorem waitForCompletion (laidOut : LaidOut ctx frames index cb) :
    Eases ctx frames index cb cb.release.resetFenceValue := by
  have frame : cb.release.frame = cb.frame := by
    obtain ⟨buffer, first, last, -⟩ := cb.release_frame
    rw [VPUCommandBuffer.frame, fenceAddress, userCount, buffer, first, last]
    rfl
  have released : LaidOut ctx frames index cb.release := laidOut.patched frame fun cmds head signalled layout =>
    ⟨head, signalled, layout.release, fun _ => rfl, id⟩
  have reset := released.setFenceValue (fun _ => (by decide : STATE_HOST_RESET < STATE_WAIT))
  refine ⟨reset.frame.trans frame, reset.laidOut, fun _ raised => ?_⟩
  have word : (cb.release.setFenceValue STATE_HOST_RESET).fenceValue = STATE_HOST_RESET :=
    cb.release.setFenceValue_fenceValue (by decide)
  have wait : STATE_WAIT ≤ (cb.release.setFenceValue STATE_HOST_RESET).fenceValue := raised
  rw [word] at wait
  exact absurd wait (by decide)

end LaidOut

/-- The command buffer whose request a step is. -/
def HostStep.request : HostStep → Option Nat
  | commandQueueSubmit index _ => some index
  | _ => none

theorem range_before {count index : Nat} {first last : List Nat} (split : List.range count = first ++ index :: last) :
    first = List.range index := by
  rw [List.range_eq_range'] at split
  obtain ⟨size, -, rfl, rest⟩ := List.range'_eq_append_iff.mp split
  cases remaining : count - size with
  | zero =>
    rw [remaining] at rest
    cases rest
  | succ others =>
    rw [remaining, List.range'_succ] at rest
    obtain ⟨rfl, -⟩ := List.cons.inj rest
    rw [List.range_eq_range']
    simp

theorem requested_requestSteps (isTurbo : Bool) (index : Nat) :
    (requestSteps isTurbo index).filterMap HostStep.request = [index] := by
  cases isTurbo <;> rfl

theorem requested_orderSteps (job : VPUJob) (waitFor : Option VPUBufferObject) :
    (orderSteps job waitFor).filterMap HostStep.request = [] := by
  rw [orderSteps]
  split
  · rfl
  · split <;> rfl

/-- A submission asks for each command buffer once, in order. -/
theorem requested_submitSteps (queue : VPUDeviceQueueManaged) (job : VPUJob) :
    (submitSteps queue job).filterMap HostStep.request = List.range job.cmdBuffers.length := by
  have ordered : (if queue.isInOrder then orderSteps job queue.lastWaitBo else []).filterMap HostStep.request = [] := by
    split
    · exact requested_orderSteps job queue.lastWaitBo
    · rfl
  rw [submitSteps, List.filterMap_append, ordered, List.nil_append, List.filterMap_flatMap]
  simp only [requested_requestSteps]
  exact List.flatMap_singleton' _

/-- The invariant of the runs while every command buffer finds its fence clear: at most one run of a command buffer
has not signalled, none while the fence word is raised, and a run behind another command buffer has its partner in
the same submission. -/
structure Fenced (frames : List FenceFrame) (fenced : FencedJob) : Prop where
  same : fenced.job.cmdBuffers.map VPUCommandBuffer.frame = frames
  distinct : (frames.map FenceFrame.address).Nodup
  laidOut : ∀ index cb, fenced.job.cmdBuffers[index]? = some cb → LaidOut fenced.ctx frames index cb
  reads : ∀ run ∈ fenced.runs, ∀ commands, run.commands = some commands →
    ∃ front closing, commands = front ++ [closing] ∧ Reads frames run.index front closing
  unread : ∀ run ∈ fenced.runs, run.commands = none → run.executed = 0
  gated : ∀ index cb, fenced.job.cmdBuffers[index]? = some cb → index + 1 < frames.length →
    Gated (STATE_WAIT ≤ cb.fenceValue) (fun run : BufferRun => run.index = index → run.finished = true) fenced.runs
  fronts : ∀ run ∈ fenced.runs, ∀ before, run.index = before + 1 → ∃ front ∈ fenced.runs,
    front.submission = run.submission ∧ front.index = before ∧ (0 < run.executed → front.finished = true)
  queued : ∀ first index last, fenced.pending.filterMap HostStep.request = first ++ index :: last →
    ∀ earlier < index, earlier ∈ first ∨
      ∃ run ∈ fenced.runs, run.submission = fenced.submissions ∧ run.index = earlier

namespace Fenced

variable {frames : List FenceFrame} {fenced : FencedJob}

theorem frame (inv : Fenced frames fenced) {index : Nat} {cb : VPUCommandBuffer}
    (found : fenced.job.cmdBuffers[index]? = some cb) : frames[index]? = some cb.frame := by
  rw [← inv.same, List.getElem?_map, found]
  rfl

theorem length (inv : Fenced frames fenced) : fenced.job.cmdBuffers.length = frames.length := by
  rw [← inv.same, List.length_map]

theorem setPending (inv : Fenced frames fenced) {pending : List HostStep}
    (fewer : pending.filterMap HostStep.request = [] ∨
      pending.filterMap HostStep.request = fenced.pending.filterMap HostStep.request) :
    Fenced frames { fenced with pending := pending } := by
  refine ⟨inv.same, inv.distinct, inv.laidOut, inv.reads, inv.unread, inv.gated, inv.fronts, ?_⟩
  intro first index last split
  rcases fewer with none | same
  · simp only [none] at split
    exact absurd split.symm (List.append_ne_nil_of_right_ne_nil first (List.cons_ne_nil index last))
  · exact inv.queued first index last (same.symm.trans split)

/-- Changes of the command buffers that raise a fence word only where every run has signalled. -/
theorem setBuffers (inv : Fenced frames fenced) {cmdBuffers : List VPUCommandBuffer}
    (same : cmdBuffers.map VPUCommandBuffer.frame = frames)
    (each : ∀ index cb, cmdBuffers[index]? = some cb → LaidOut fenced.ctx frames index cb ∧
      ∃ old, fenced.job.cmdBuffers[index]? = some old ∧ (index + 1 < frames.length → STATE_WAIT ≤ cb.fenceValue →
        STATE_WAIT ≤ old.fenceValue ∨ ∀ run ∈ fenced.runs, run.index = index → run.finished = true)) :
    Fenced frames (fenced.setBuffers cmdBuffers) := by
  refine ⟨same, inv.distinct, fun index cb found => (each index cb found).1, inv.reads, inv.unread, ?_, inv.fronts,
    inv.queued⟩
  intro index cb found follows
  obtain ⟨-, old, was, change⟩ := each index cb found
  exact (inv.gated index old was follows).word (change follows)

theorem setBuffer (inv : Fenced frames fenced) {index : Nat} {cb patched : VPUCommandBuffer}
    (found : fenced.job.cmdBuffers[index]? = some cb) (eases : Eases fenced.ctx frames index cb patched) :
    Fenced frames (fenced.setBuffers (fenced.job.cmdBuffers.set index patched)) := by
  obtain ⟨inside, -⟩ := List.getElem?_eq_some_iff.mp found
  apply inv.setBuffers
  · obtain ⟨within, value⟩ := List.getElem?_eq_some_iff.mp (inv.frame found)
    rw [List.map_set, eases.frame, inv.same, ← value]
    exact List.set_getElem_self within
  · intro other changed present
    by_cases here : index = other
    · subst here
      rw [List.getElem?_set_self inside] at present
      obtain rfl := Option.some.inj present
      exact ⟨eases.laidOut, cb, found, fun follows raised => .inl (eases.lower follows raised)⟩
    · rw [List.getElem?_set_ne here] at present
      exact ⟨inv.laidOut other changed present, changed, present, fun _ raised => .inl raised⟩

theorem patch (inv : Fenced frames fenced) {index : Nat} {change : VPUCommandBuffer → Bool × VPUCommandBuffer}
    {step : HostStep} {rest : List HostStep} (pending : fenced.pending = step :: rest) (other : step.request = none)
    (eases : ∀ cb, LaidOut fenced.ctx frames index cb → Eases fenced.ctx frames index cb (change cb).2) :
    Fenced frames (fenced.patch index change rest) := by
  have fewer : rest.filterMap HostStep.request = fenced.pending.filterMap HostStep.request := by
    rw [pending, List.filterMap_cons_none other]
  rw [FencedJob.patch]
  split
  · exact inv.setPending (.inl rfl)
  · rename_i cb found
    have changed := inv.setBuffer found (eases cb (inv.laidOut index cb found))
    split
    · rename_i patched answer
      rw [answer] at changed
      exact changed.setPending (.inl rfl)
    · rename_i patched answer
      rw [answer] at changed
      exact changed.setPending (.inr fewer)

/-- The kernel accepts a command buffer whose fence is clear. -/
theorem accept (inv : Fenced frames fenced) {index : Nat} {isTurbo : Bool} {rest : List HostStep}
    (pending : fenced.pending = .commandQueueSubmit index isTurbo :: rest)
    (clear : ∀ cb, fenced.job.cmdBuffers[index]? = some cb → index + 1 < frames.length →
      cb.fenceValue < STATE_WAIT ∧ ∀ run ∈ fenced.runs, run.index = index → run.finished = true) :
    Fenced frames { fenced with
      pending := rest, runs := fenced.runs ++ [.accepted fenced.submissions index] } := by
  have requests : fenced.pending.filterMap HostStep.request = index :: rest.filterMap HostStep.request := by
    rw [pending]
    rfl
  refine ⟨inv.same, inv.distinct, inv.laidOut, ?_, ?_, ?_, ?_, ?_⟩
  · intro run member commands started
    rcases List.mem_append.mp member with old | new
    · exact inv.reads run old commands started
    · rw [List.mem_singleton.mp new] at started
      cases started
  · intro run member started
    rcases List.mem_append.mp member with old | new
    · exact inv.unread run old started
    · rw [List.mem_singleton.mp new]
      rfl
  · intro other cb found follows
    have gated := inv.gated other cb found follows
    by_cases here : index = other
    · subst here
      obtain ⟨word, signalled⟩ := clear cb found follows
      exact gated_snoc (Nat.not_le.mpr word) signalled
    · exact gated.snoc_closed fun same => absurd same here
  · intro run member before behind
    rcases List.mem_append.mp member with old | new
    · obtain ⟨front, present, partner⟩ := inv.fronts run old before behind
      exact ⟨front, List.mem_append_left _ present, partner⟩
    · obtain rfl := List.mem_singleton.mp new
      have behind : index = before + 1 := behind
      rcases inv.queued [] index _ requests before (by omega) with nowhere | ⟨front, present, submission, position⟩
      · cases nowhere
      · exact ⟨front, List.mem_append_left _ present, submission, position, fun ran => absurd ran (Nat.lt_irrefl 0)⟩
  · intro first next last split earlier below
    have whole : fenced.pending.filterMap HostStep.request = (index :: first) ++ next :: last := by
      rw [requests, List.cons_append]
      exact congrArg (index :: ·) split
    rcases inv.queued (index :: first) next last whole earlier below with listed | ⟨front, present, partner⟩
    · rcases List.mem_cons.mp listed with rfl | later
      · exact .inr ⟨_, List.mem_append_right _ (List.mem_singleton_self _), rfl, rfl⟩
      · exact .inl later
    · exact .inr ⟨front, List.mem_append_left _ present, partner⟩

/-- A run goes on; one that waits for another finds it finished. -/
theorem setRun (inv : Fenced frames fenced) {position : Nat} {run : BufferRun} (changed : BufferRun)
    (present : fenced.runs[position]? = some run) (submission : changed.submission = run.submission)
    (index : changed.index = run.index) (finishes : run.finished = true → changed.finished = true)
    (reads : ∀ commands, changed.commands = some commands →
      ∃ front closing, commands = front ++ [closing] ∧ Reads frames run.index front closing)
    (unread : changed.commands = none → changed.executed = 0)
    (waited : ∀ before, run.index = before + 1 → 0 < changed.executed → ∃ front ∈ fenced.runs,
      front.submission = run.submission ∧ front.index = before ∧ front.finished = true) :
    Fenced frames { fenced with runs := fenced.runs.set position changed } := by
  have kept : ∀ other ∈ fenced.runs, ∃ later ∈ fenced.runs.set position changed,
      later.submission = other.submission ∧ later.index = other.index ∧
        (other.finished = true → later.finished = true) :=
    exists_image (pointwise_set (fun _ => ⟨rfl, rfl, id⟩) present ⟨submission, index, finishes⟩)
  have either : ∀ other ∈ fenced.runs.set position changed, other ∈ fenced.runs ∨ other = changed :=
    fun other member => List.mem_or_eq_of_mem_set member
  have member := List.mem_of_getElem? present
  refine ⟨inv.same, inv.distinct, inv.laidOut, ?_, ?_, ?_, ?_, ?_⟩
  · intro other listed commands started
    rcases either other listed with old | rfl
    · exact inv.reads other old commands started
    · rw [index]
      exact reads commands started
  · intro other listed started
    rcases either other listed with old | rfl
    · exact inv.unread other old started
    · exact unread started
  · intro place cb found follows
    apply (inv.gated place cb found follows).set present
    intro closed here
    exact finishes (closed (index.symm.trans here))
  · intro other listed before behind
    rcases either other listed with old | rfl
    · obtain ⟨front, there, same, place, ready⟩ := inv.fronts other old before behind
      obtain ⟨later, found, same', place', ready'⟩ := kept front there
      exact ⟨later, found, same'.trans same, place'.trans place, fun ran => ready' (ready ran)⟩
    · rw [index] at behind
      by_cases ran : 0 < other.executed
      · obtain ⟨front, there, same, place, ready⟩ := waited before behind ran
        obtain ⟨later, found, same', place', ready'⟩ := kept front there
        exact ⟨later, found, (same'.trans same).trans submission.symm, place'.trans place, fun _ => ready' ready⟩
      · obtain ⟨front, there, same, place, -⟩ := inv.fronts run member before behind
        obtain ⟨later, found, same', place', -⟩ := kept front there
        exact ⟨later, found, (same'.trans same).trans submission.symm, place'.trans place, fun has => absurd has ran⟩
  · intro first next last split earlier below
    rcases inv.queued first next last split earlier below with listed | ⟨front, there, same, place⟩
    · exact .inl listed
    · obtain ⟨later, found, same', place', -⟩ := kept front there
      exact .inr ⟨later, found, same'.trans same, place'.trans place⟩

theorem start (inv : Fenced frames fenced) (position : Nat) : Fenced frames (fenced.start position) := by
  rw [FencedJob.start]
  split
  · exact inv
  · rename_i run present
    split
    · rename_i cb unstarted found
      obtain ⟨front, closing, read, reads⟩ := (inv.laidOut run.index cb found).reads (inv.frame found)
      have nothing := inv.unread run (List.mem_of_getElem? present) unstarted
      apply inv.setRun { run with commands := cb.readCommands } present rfl rfl
      · intro finished
        rw [BufferRun.finished, unstarted] at finished
        cases finished
      · intro commands started
        rw [read] at started
        exact ⟨front, closing, (Option.some.inj started).symm, reads⟩
      · intro failed
        rw [read] at failed
        cases failed
      · intro before _ ran
        exact absurd nothing (Nat.ne_of_gt ran)
    · exact inv

/-- A wait for the fence in front passes only after the partner of the run has signalled. -/
theorem waited (inv : Fenced frames fenced) {run : BufferRun} (member : run ∈ fenced.runs) {before : Nat}
    {frame : FenceFrame} (behind : run.index = before + 1) (found : frames[before]? = some frame)
    (follows : before + 1 < frames.length)
    (passes : fenced.waitPasses ⟨VPU_CMD_FENCE_WAIT, frame.address, STATE_WAIT⟩ = true) :
    ∃ front ∈ fenced.runs, front.submission = run.submission ∧ front.index = before ∧ front.finished = true := by
  rw [← inv.same, List.getElem?_map] at found
  obtain ⟨cb, present, rfl⟩ := Option.map_eq_some_iff.mp found
  have raised : STATE_WAIT ≤ cb.fenceValue := by
    have each := List.all_eq_true.mp passes cb (List.mem_of_getElem? present)
    simpa [VPUCommandBuffer.frame] using each
  obtain ⟨front, there, same, place, -⟩ := inv.fronts run member before behind
  exact ⟨front, there, same, place, (inv.gated before cb present follows).raised raised front there place⟩

theorem storeFence (inv : Fenced frames fenced) {fence : FenceCommand}
    (low : ∀ index frame, frames[index]? = some frame → frame.address = fence.address → index + 1 < frames.length →
      fence.value < STATE_WAIT ∨ ∀ run ∈ fenced.runs, run.index = index → run.finished = true) :
    Fenced frames (fenced.storeFence fence) := by
  apply inv.setBuffers
  · rw [List.map_map, ← inv.same]
    apply List.map_congr_left
    intro cb _
    simp only [Function.comp_apply]
    split <;> rfl
  · intro index changed found
    rw [List.getElem?_map] at found
    obtain ⟨cb, present, rfl⟩ := Option.map_eq_some_iff.mp found
    have laidOut := inv.laidOut index cb present
    split
    · rename_i here
      refine ⟨laidOut.stored fence.value, cb, present, fun follows raised => ?_⟩
      rcases low index cb.frame (inv.frame present) here follows with small | signalled
      · exact .inl ((laidOut.setFenceValue fun _ => small).lower follows raised)
      · exact .inr signalled
    · exact ⟨laidOut, cb, present, fun _ raised => .inl raised⟩

end Fenced

/-- A run whose next command the device executes. -/
structure Executing (frames : List FenceFrame) (fenced : FencedJob) (position : Nat) (run : BufferRun)
    (bytes : List UInt8) (front : List (List UInt8)) (closing : List UInt8) : Prop where
  present : fenced.runs[position]? = some run
  started : run.commands = some (front ++ [closing])
  reads : Reads frames run.index front closing
  next : (front ++ [closing])[run.executed]? = some bytes

theorem Fenced.executing {frames : List FenceFrame} {fenced : FencedJob} (inv : Fenced frames fenced) {position : Nat}
    {run : BufferRun} {bytes : List UInt8} (present : fenced.runs[position]? = some run)
    (next : (run.commands.getD [])[run.executed]? = some bytes) :
    ∃ front closing, Executing frames fenced position run bytes front closing := by
  cases started : run.commands with
  | none =>
    rw [started] at next
    cases next
  | some commands =>
    rw [started, Option.getD_some] at next
    obtain ⟨front, closing, rfl, reads⟩ := inv.reads run (List.mem_of_getElem? present) commands started
    exact ⟨front, closing, present, started, reads, next⟩

namespace Executing

variable {frames : List FenceFrame} {fenced : FencedJob} {position : Nat} {run : BufferRun} {bytes : List UInt8}
  {front : List (List UInt8)} {closing : List UInt8}

theorem inside (executing : Executing frames fenced position run bytes front closing) :
    run.executed ≤ front.length := by
  obtain ⟨below, -⟩ := List.getElem?_eq_some_iff.mp executing.next
  rw [List.length_append, List.length_singleton] at below
  omega

theorem unfinished (executing : Executing frames fenced position run bytes front closing) : run.finished = false := by
  have inside := executing.inside
  rw [BufferRun.finished, executing.started]
  simp only [List.length_append, List.length_singleton, decide_eq_false_iff_not]
  omega

/-- The first command behind another command buffer is the wait for its fence. -/
theorem first (executing : Executing frames fenced position run bytes front closing) {before : Nat}
    (behind : run.index = before + 1) (start : run.executed = 0) :
    ∃ frame, frames[before]? = some frame ∧ before + 1 < frames.length ∧
      decodeFence bytes = some ⟨VPU_CMD_FENCE_WAIT, frame.address, STATE_WAIT⟩ := by
  obtain ⟨frame, wait, second, users, found, decoded, rfl, count⟩ := executing.reads.waits before behind
  obtain ⟨own, there, -⟩ := Option.map_eq_some_iff.mp count
  obtain ⟨within, -⟩ := List.getElem?_eq_some_iff.mp there
  have value := executing.next
  rw [start] at value
  exact ⟨frame, found, behind ▸ within, Option.some.inj value ▸ decoded⟩

/-- The run goes on when it is past its wait, or when its wait passes. -/
theorem advance (executing : Executing frames fenced position run bytes front closing) (inv : Fenced frames fenced)
    (passes : ∀ frame, decodeFence bytes = some ⟨VPU_CMD_FENCE_WAIT, frame, STATE_WAIT⟩ →
      fenced.waitPasses ⟨VPU_CMD_FENCE_WAIT, frame, STATE_WAIT⟩ = true) :
    Fenced frames { fenced with runs := fenced.runs.set position { run with executed := run.executed + 1 } } := by
  have member := List.mem_of_getElem? executing.present
  apply inv.setRun { run with executed := run.executed + 1 } executing.present rfl rfl
  · intro finished
    rw [executing.unfinished] at finished
    cases finished
  · exact inv.reads run member
  · intro missing
    rw [executing.started] at missing
    cases missing
  · intro before behind _
    rcases Nat.eq_zero_or_pos run.executed with start | ran
    · obtain ⟨frame, found, follows, decoded⟩ := executing.first behind start
      exact inv.waited member behind found follows (passes frame.address decoded)
    · obtain ⟨other, there, same, place, ready⟩ := inv.fronts run member before behind
      exact ⟨other, there, same, place, ready ran⟩

/-- A command that stores raises no fence word but that of its own command buffer, as the last of its run. -/
theorem low (executing : Executing frames fenced position run bytes front closing) (inv : Fenced frames fenced)
    {fence : FenceCommand} (decoded : decodeFence bytes = some fence) (store : fence.type ≠ VPU_CMD_FENCE_WAIT)
    {index : Nat} {frame : FenceFrame} (found : frames[index]? = some frame) (here : frame.address = fence.address)
    (follows : index + 1 < frames.length) :
    fence.value < STATE_WAIT ∨
      ∀ other ∈ fenced.runs.set position { run with executed := run.executed + 1 },
        other.index = index → other.finished = true := by
  have value := executing.next
  by_cases early : run.executed < front.length
  · left
    rw [List.getElem?_append_left early] at value
    exact executing.reads.low bytes (List.mem_of_getElem? value) fence decoded store
      ⟨frame, List.mem_of_getElem? found, here⟩
  · right
    have last : run.executed = front.length := Nat.le_antisymm executing.inside (Nat.not_lt.mp early)
    have closes : closing = bytes := by
      rw [last] at value
      simpa using value
    -- the word is the own one, since the addresses are distinct
    have own := executing.reads.own fence (closes ▸ decoded)
    obtain ⟨frame', found', address⟩ := Option.map_eq_some_iff.mp own
    obtain ⟨inside', -⟩ := List.getElem?_eq_some_iff.mp found'
    have place : run.index = index := by
      apply (List.getElem?_inj (by rw [List.length_map]; exact inside') inv.distinct).mp
      rw [List.getElem?_map, List.getElem?_map, found, found', Option.map_some, Option.map_some, here, address]
    have within : index < fenced.job.cmdBuffers.length := by
      rw [inv.length]
      omega
    apply (inv.gated index fenced.job.cmdBuffers[index] (List.getElem?_eq_getElem within) follows).close
      executing.present
    · rw [executing.unfinished]
      exact fun closed => Bool.false_ne_true (closed place)
    · intro _
      rw [BufferRun.finished, executing.started]
      simp [last]

end Executing

namespace Fenced

variable {frames : List FenceFrame} {fenced : FencedJob}

theorem execute (inv : Fenced frames fenced) (position : Nat) : Fenced frames (fenced.execute position) := by
  rw [FencedJob.execute]
  split
  · exact inv
  · rename_i run present
    split
    · exact inv
    · rename_i bytes next
      obtain ⟨front, closing, executing⟩ := inv.executing present next
      split
      · rename_i other
        apply executing.advance inv
        intro address decoded
        rw [other] at decoded
        cases decoded
      · rename_i fence decoded
        split
        · split
          · rename_i pass
            apply executing.advance inv
            intro address same
            rw [decoded] at same
            exact Option.some.inj same ▸ pass
          · exact inv
        · rename_i store
          apply Fenced.storeFence
          · apply executing.advance inv
            intro address same
            rw [decoded] at same
            exact absurd (congrArg FenceCommand.type (Option.some.inj same)) store
          · intro index frame found here follows
            exact executing.low inv decoded store found here follows

theorem submit (inv : Fenced frames fenced) (queue : VPUDeviceQueueManaged) : Fenced frames (fenced.submit queue) := by
  refine ⟨inv.same, inv.distinct, inv.laidOut, inv.reads, inv.unread, inv.gated, inv.fronts, ?_⟩
  intro first index last split earlier below
  rw [FencedJob.submit] at split
  simp only [requested_submitSteps] at split
  left
  rw [range_before split]
  exact List.mem_range.mpr below

end Fenced

end NpuDriver
