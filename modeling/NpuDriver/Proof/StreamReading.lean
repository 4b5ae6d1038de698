import NpuDriver.Command.Stream
import NpuDriver.Proof.Placement

/-! Reading a command stream back: the bytes of a patched command, and the walk over a
stored series of commands. -/

namespace NpuDriver

open Library

namespace VPUCommand

@[simp] theorem patchDescriptorAddress_getDescriptorData (cmd : VPUCommand) (vpuAddr : Nat) :
    (cmd.patchDescriptorAddress vpuAddr).getDescriptorData = cmd.getDescriptorData := by
  unfold patchDescriptorAddress
  split <;> rfl

@[simp] theorem patchDescriptorAddress_getCommitSize (cmd : VPUCommand) (vpuAddr : Nat) :
    (cmd.patchDescriptorAddress vpuAddr).getCommitSize = cmd.getCommitSize := by
  unfold patchDescriptorAddress
  split
  · rename_i kind
    simp [getCommitSize, kind, CommandStruct.getHeader]
  · rfl

@[simp] theorem patchedAt_getCommitSize (cmd : VPUCommand) (vpuAddr offset : Nat) :
    (cmd.patchedAt vpuAddr offset).getCommitSize = cmd.getCommitSize := by
  unfold patchedAt
  split <;> simp

/-- A patch of the descriptor address touches the eight bytes of that address only. -/
theorem patchedAt_stream (cmd : VPUCommand) (vpuAddr offset : Nat) :
    (cmd.patchedAt vpuAddr offset).getCommitStream = cmd.getCommitStream ∨
      ∃ descStart descCount, cmd.command = .copyBuffer descStart descCount ∧
        (cmd.patchedAt vpuAddr offset).getCommitStream =
          cmd.getCommitStream.take 8 ++ littleEndian 8 (vpuAddr + offset) ++
            cmd.getCommitStream.drop 16 := by
  unfold patchedAt
  split
  · unfold patchDescriptorAddress
    split
    · rename_i descStart descCount kind
      refine .inr ⟨descStart, descCount, kind, ?_⟩
      simp [getCommitStream, kind, CommandStruct.getHeader, CommandStruct.body, encodeHeader,
        littleEndian]
    · exact .inl rfl
  · exact .inl rfl

/-- The size field that the firmware reads is the size of the command. -/
theorem sizeAt_stream {cmd : VPUCommand} {image : Image} (positive : 0 < cmd.getCommitSize)
    (stored : image.read position cmd.getCommitSize = cmd.getCommitStream) :
    sizeAt image position = cmd.getCommitSize := by
  have long : 8 ≤ cmd.getCommitSize := by
    rcases cmd.getCommitSize_cases with ⟨-, zero⟩ | long
    · omega
    · exact long
  have field : image.read (position + 2) 2 = (cmd.getCommitStream.drop 2).take 2 := by
    have split := image.read_add position 2 (cmd.getCommitSize - 2)
    rw [show 2 + (cmd.getCommitSize - 2) = cmd.getCommitSize by omega, stored] at split
    have rest := image.read_add (position + 2) 2 (cmd.getCommitSize - 4)
    rw [show 2 + (cmd.getCommitSize - 4) = cmd.getCommitSize - 2 by omega] at rest
    rw [split, rest]
    simp
  have header : (cmd.getCommitStream.drop 2).take 2 = littleEndian 2 cmd.getCommitSize := by
    unfold getCommitStream getCommitSize
    split
    · rename_i missing
      simp [getCommitSize, missing] at positive
    · simp [encodeHeader, littleEndian]
  have bound : cmd.getCommitSize < 256 ^ 2 := by
    have small := cmd.getCommitSize_le
    simp only [UINT16_MAX] at small
    omega
  rw [sizeAt, field, header, fromLittleEndian_of_lt bound]

end VPUCommand

open VPUCommandBuffer (commitSizes descriptorSizes)

/-- The firmware reads a stored series of commands back one by one. -/
theorem readStream_commands {image : Image} {cmds : List VPUCommand}
    (positive : ∀ cmd ∈ cmds, 0 < cmd.getCommitSize)
    (stored : image.read (headerOffset + offset) (commitSizes cmds) = cmds.flatMap VPUCommand.getCommitStream)
    (fuel : Nat) (enough : commitSizes cmds ≤ fuel) :
    readStream image fuel offset (offset + commitSizes cmds) =
      some (cmds.map VPUCommand.getCommitStream) := by
  induction cmds generalizing offset fuel with
  | nil => cases fuel <;> simp [readStream, commitSizes]
  | cons cmd rest ih =>
    have size : commitSizes (cmd :: rest) = cmd.getCommitSize + commitSizes rest := by
      simp [commitSizes]
    have nonzero := positive cmd (List.mem_cons_self ..)
    rw [size] at stored enough ⊢
    rw [image.read_add, List.flatMap_cons] at stored
    obtain ⟨first, others⟩ := List.append_inj stored (by simp)
    cases fuel with
    | zero => omega
    | succ fuel =>
      have step := VPUCommand.sizeAt_stream nonzero first
      have remaining : readStream image fuel (offset + cmd.getCommitSize) _ = _ :=
        ih (fun other member => positive other (List.mem_cons_of_mem cmd member))
          (by rw [← Nat.add_assoc]; exact others) fuel (by omega)
      rw [show offset + (cmd.getCommitSize + commitSizes rest) =
        offset + cmd.getCommitSize + commitSizes rest by omega]
      simp only [readStream, step]
      rw [if_neg (by omega), if_neg (by omega), if_neg (by omega), remaining, first]
      rfl

end NpuDriver
