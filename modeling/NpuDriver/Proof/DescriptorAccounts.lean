import NpuDriver.LevelZero.DeviceContexts
import NpuDriver.Library.Ownership

/-! The descriptors of device files: who has them, and the one that is never closed. -/

namespace NpuDriver

open Library ZeResult

namespace DeviceFiles

variable {state : DeviceFiles} {owns : Nat → Nat → Prop} {lost : Nat → Prop}

/-- Each descriptor of a device file that is open has one owner, or it is descriptor 0 and lost. -/
structure Sound (state : DeviceFiles) (owns : Nat → Nat → Prop) (lost : Nat → Prop) : Prop where
  accounted : Accounted state.log owns lost
  files : ∀ fd, fd ∈ state.files ↔ Held state.log fd
  apart : ∀ fd ∈ state.files, fd ∉ state.others
  zero : ∀ fd, lost fd → fd = 0

theorem openFile_unused (state : DeviceFiles) : state.openFile.1 ∉ state.others ∧ state.openFile.1 ∉ state.files := by
  have unused := state.numbers.unused state.opened (state.others ++ state.files)
  rw [List.mem_append, not_or] at unused
  exact unused

theorem Sound.fresh (sound : Sound state owns lost) : ¬ Held state.log state.openFile.1 :=
  fun held => (openFile_unused state).2 ((sound.files _).mpr held)

theorem Sound.opened_files (sound : Sound state owns lost) (fd : Nat) :
    fd ∈ state.openFile.2.files ↔ Held state.openFile.2.log fd := by
  rw [openFile, Held, ← sound.files]
  exact List.mem_cons

theorem Sound.opened_apart (sound : Sound state owns lost) : ∀ fd ∈ state.openFile.2.files, fd ∉ state.others := by
  intro fd member
  rcases List.mem_cons.mp member with rfl | before
  · exact (openFile_unused state).1
  · exact sound.apart fd before

/-- A file that gets an owner. -/
theorem Sound.adopt (sound : Sound state owns lost) (owner : Nat) :
    Sound state.openFile.2 (fun other fd => owns other fd ∨ other = owner ∧ fd = state.openFile.1) lost :=
  ⟨sound.accounted.obtain sound.fresh owner, sound.opened_files, sound.opened_apart, sound.zero⟩

/-- A file that is closed by the call that opened it. -/
theorem Sound.borrow (sound : Sound state owns lost) :
    Sound (state.openFile.2.closeFile state.openFile.1) owns lost := by
  refine ⟨sound.accounted.borrow sound.fresh, ?_, ?_, sound.zero⟩
  · intro fd
    rw [closeFile, List.mem_filter, decide_eq_true_iff, sound.opened_files, Held]
    exact and_comm
  · intro fd member
    rw [closeFile, List.mem_filter] at member
    exact sound.opened_apart fd member.1

/-- A file with descriptor 0 that nobody closes. -/
theorem Sound.abandon (sound : Sound state owns lost) (zero : state.openFile.1 = 0) :
    Sound state.openFile.2 owns fun fd => lost fd ∨ fd = state.openFile.1 := by
  refine ⟨sound.accounted.abandon sound.fresh, sound.opened_files, sound.opened_apart, ?_⟩
  rintro fd (before | rfl)
  · exact sound.zero fd before
  · exact zero

/-- The destructor of an owner closes its file unless that has descriptor 0. -/
theorem Sound.destruct (sound : Sound state owns lost) {owner vpuFd : Nat} (owned : owns owner vpuFd) :
    ∃ others, Sound (state.destruct vpuFd) (fun other fd => owns other fd ∧ fd ≠ vpuFd) others := by
  unfold DeviceFiles.destruct
  split
  · refine ⟨lost, sound.accounted.release owner owned, ?_, ?_, sound.zero⟩
    · intro fd
      rw [closeFile, List.mem_filter, decide_eq_true_iff, sound.files, Held]
      exact and_comm
    · intro fd member
      rw [closeFile, List.mem_filter] at member
      exact sound.apart fd member.1
  · rename_i none
    refine ⟨fun fd => lost fd ∨ fd = vpuFd, sound.accounted.lose owned, sound.files, sound.apart, ?_⟩
    rintro fd (before | rfl)
    · exact sound.zero fd before
    · omega

/-- Other owners of the same descriptors. -/
theorem Sound.congr (sound : Sound state owns lost) {owns' : Nat → Nat → Prop}
    (owners : ∀ owner fd, owns' owner fd ↔ owns owner fd) : Sound state owns' lost :=
  ⟨sound.accounted.congr owners fun _ => Iff.rfl, sound.files, sound.apart, sound.zero⟩

/-- A file is opened for good, or there is none and the accounts are as before. -/
theorem Sound.openDriverApi (sound : Sound state owns lost) (reply : FileReply) :
    (∃ next, state.openDriverApi reply = (none, next) ∧ Sound next owns lost) ∨
      state.openDriverApi reply = (some state.openFile.1, state.openFile.2) := by
  unfold DeviceFiles.openDriverApi osiOpen
  split
  · exact .inl ⟨state, rfl, sound⟩
  · dsimp only
    split
    · exact .inl ⟨_, rfl, sound.borrow⟩
    · exact .inr rfl

theorem Sound.withDriverApi {α : Type} (sound : Sound state owns lost) (reply : FileReply) (refused answer : α) :
    ∃ others, Sound (state.withDriverApi reply refused answer).2 owns others := by
  rcases sound.openDriverApi reply with ⟨next, refused, kept⟩ | opened
  · rw [DeviceFiles.withDriverApi, refused]
    exact ⟨lost, kept⟩
  · rw [DeviceFiles.withDriverApi, opened]
    dsimp only [DeviceFiles.destruct]
    split
    · exact ⟨lost, sound.borrow⟩
    · exact ⟨_, sound.abandon (by omega)⟩

theorem Sound.createDevices (sound : Sound state owns lost) (replies : Nat → DeviceReplies) (enableMetrics : Bool)
    (rest : List Nat) : ∃ others, Sound (createDevices replies enableMetrics rest state).2 owns others := by
  induction rest generalizing state lost with
  | nil => exact ⟨lost, sound⟩
  | cons minor rest ih =>
    obtain ⟨between, next⟩ := sound.withDriverApi (replies minor).file (.ok none)
      (VPUDevice.examine minor (replies minor) enableMetrics)
    rw [NpuDriver.createDevices, VPUDevice.init]
    split
    · rename_i failed
      rw [failed] at next
      exact ⟨between, next⟩
    · rename_i examined
      rw [examined] at next
      obtain ⟨others, last⟩ := ih next
      split
      · rename_i failed
        rw [failed] at last
        exact ⟨others, last⟩
      · rename_i created
        rw [created] at last
        exact ⟨others, last⟩

end DeviceFiles

namespace DevicesState

variable {state : DevicesState} {lost : Nat → Prop}

/-- The descriptors of the contexts. -/
abbrev Owns (state : DevicesState) : Nat → Nat → Prop := TableOwns (fun vpuFd fd => fd = vpuFd) state.contexts

theorem sound_createContext (sound : state.files.Sound state.Owns lost) (desc phContext : Bool) (file : FileReply) :
    ∃ others, (state.createContext desc phContext file).2.files.Sound
      (state.createContext desc phContext file).2.Owns others := by
  unfold DevicesState.createContext
  split
  · exact ⟨lost, sound⟩
  · rcases sound.openDriverApi file with ⟨next, refused, kept⟩ | opened
    · rw [refused]
      exact ⟨lost, kept⟩
    · rw [opened]
      exact ⟨lost, (sound.adopt state.contexts.length).congr (TableOwns.append state.contexts _)⟩

theorem sound_destroyContext (sound : state.files.Sound state.Owns lost) {context vpuFd : Nat}
    (found : live state.contexts context = some vpuFd) :
    ∃ others, (state.files.destruct vpuFd).Sound
      (TableOwns (fun vpuFd fd => fd = vpuFd) (state.contexts.set context none)) others := by
  have owned : state.Owns context vpuFd := ⟨vpuFd, found, rfl⟩
  obtain ⟨others, closed⟩ := sound.destruct owned
  refine ⟨others, closed.congr ?_⟩
  intro other fd
  apply (TableOwns.set found none other fd).trans
  split
  · rename_i self
    subst self
    constructor
    · rintro ⟨object, absent, -⟩
      cases absent
    · rintro ⟨owns, different⟩
      exact absurd ((TableOwns.found found fd).mp owns) different
  · rename_i different
    constructor
    · intro owns
      refine ⟨owns, ?_⟩
      rintro rfl
      exact different (sound.accounted.apart other context _ owns owned)
    · exact And.left

theorem sound_transient {α : Type} (sound : state.files.Sound state.Owns lost) (file : FileReply) (refused answer : α)
    (reported : α → DevicesAnswer) :
    ∃ others, (state.transient (fun files => files.withDriverApi file refused answer) reported).2.files.Sound
      (state.transient (fun files => files.withDriverApi file refused answer) reported).2.Owns others :=
  sound.withDriverApi file refused answer

theorem sound_withDevice (sound : state.files.Sound state.Owns lost) (device : Nat)
    {call : DevicesAnswer × DevicesState} (kept : ∃ others, call.2.files.Sound call.2.Owns others) :
    ∃ others, (state.withDevice device call).2.files.Sound (state.withDevice device call).2.Owns others := by
  unfold DevicesState.withDevice
  split
  · exact kept
  · exact ⟨lost, sound⟩

theorem sound_step (sound : state.files.Sound state.Owns lost) (call : DevicesCall) :
    ∃ others, (state.step call).2.files.Sound (state.step call).2.Owns others := by
  cases call with
  | init flags metrics replies =>
    simp only [DevicesState.step, DevicesState.init]
    split
    · exact ⟨lost, sound⟩
    · split
      · exact ⟨lost, sound⟩
      · obtain ⟨others, created⟩ := sound.createDevices replies metrics minors
        split
        · rename_i failed
          rw [failed] at created
          exact ⟨others, created⟩
        · rename_i found
          rw [found] at created
          exact ⟨others, created⟩
  | createContext desc phContext file =>
    exact sound_withDevice sound 0 (sound_createContext sound desc phContext file)
  | destroyContext context =>
    simp only [DevicesState.step, withLive]
    split
    · rename_i found
      exact sound_destroyContext sound found
    · exact ⟨lost, sound⟩
  | contextGetStatus context replies =>
    simp only [DevicesState.step, withLive]
    split
    · exact sound_transient sound replies.file _ _ _
    · exact ⟨lost, sound⟩
  | deviceGetStatus device replies =>
    exact sound_withDevice sound device (sound_transient sound replies.file _ _ _)
  | getGlobalTimestamps device file job =>
    exact sound_withDevice sound device (sound_transient sound file _ _ _)
  | getPciProperties device file stated link =>
    exact sound_withDevice sound device (sound_transient sound file _ _ _)
  | engineGetActivity device pStats file content =>
    refine sound_withDevice sound device ?_
    split
    · exact ⟨lost, sound⟩
    · exact sound_transient sound file _ _ _
  | elsewhereOpen =>
    refine ⟨lost, sound.accounted, sound.files, ?_, sound.zero⟩
    intro fd member inside
    have unused := state.files.numbers.unused state.files.opened (state.files.others ++ state.files.files)
    rcases List.mem_cons.mp inside with rfl | before
    · exact unused (List.mem_append_right _ member)
    · exact sound.apart fd member before
  | elsewhereClose fd =>
    refine ⟨lost, sound.accounted, sound.files, ?_, sound.zero⟩
    intro other member inside
    exact sound.apart other member (List.mem_of_mem_filter inside)

theorem sound_run (sound : state.files.Sound state.Owns lost) (calls : List DevicesCall) :
    ∃ others, (final step state calls).files.Sound (final step state calls).Owns others := by
  induction calls generalizing state lost with
  | nil => exact ⟨lost, sound⟩
  | cons call rest ih =>
    obtain ⟨between, next⟩ := sound_step sound call
    exact ih next

theorem sound_new (numbers : HandleNumbers) (others : List Nat) :
    (new numbers others).files.Sound (new numbers others).Owns fun _ => False := by
  refine ⟨Accounted.nothing.congr TableOwns.nil fun _ => Iff.rfl, ?_, ?_, ?_⟩
  · intro fd
    exact iff_of_false List.not_mem_nil id
  · intro fd absent
    cases absent
  · intro fd absent
    cases absent

/-- No device file is closed twice or while it is not open. What is open is the file of one context, except that
nobody closes descriptor 0, which a device file gets only while the rest of the process leaves it free. -/
theorem device_files_accounted (numbers : HandleNumbers) (others : List Nat) (calls : List DevicesCall) :
    ∃ lost, Accounted (final step (new numbers others) calls).files.log
        (final step (new numbers others) calls).Owns lost ∧
      ∀ fd, lost fd → fd = 0 ∧ 0 ∉ (final step (new numbers others) calls).files.others := by
  obtain ⟨lost, sound⟩ := sound_run (sound_new numbers others) calls
  refine ⟨lost, sound.accounted, ?_⟩
  intro fd gone
  obtain rfl := sound.zero fd gone
  exact ⟨rfl, sound.apart 0 ((sound.files 0).mpr ((sound.accounted.held 0).mpr (.inr gone)))⟩

end DevicesState

end NpuDriver
