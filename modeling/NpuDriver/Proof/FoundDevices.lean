import NpuDriver.LevelZero.DeviceContexts

/-! What the driver answers, told without descriptors. -/

namespace NpuDriver

open Library ZeResult

/-- The checks of `osiOpen`. -/
def FileReply.usable (reply : FileReply) : Bool :=
  reply.granted && reply.stated && reply.character && reply.links ≤ 1

/-- The devices that were found, and the contexts in the order of their creation. -/
structure DeviceTable where
  devices : Option (List VPUDevice)
  contexts : List (Option Unit)

namespace DeviceTable

def whenUsable {α : Type} (file : FileReply) (refused answer : α) : α := if file.usable then answer else refused

/-- The devices among the minors, unless one of them throws. -/
def detect (replies : Nat → DeviceReplies) (metrics : Bool) (among : List Nat) :
    Except MetricGroup.Fault (List VPUDevice) :=
  List.reduceOption <$> among.mapM fun minor =>
    whenUsable (replies minor).file (.ok none) (VPUDevice.examine minor (replies minor) metrics)

theorem detect_cons (replies : Nat → DeviceReplies) (metrics : Bool) (minor : Nat) (rest : List Nat) :
    detect replies metrics (minor :: rest) =
      match whenUsable (replies minor).file (.ok none) (VPUDevice.examine minor (replies minor) metrics) with
      | .error fault => .error fault
      | .ok found =>
        match detect replies metrics rest with
        | .error fault => .error fault
        | .ok devices => .ok (found.toList ++ devices) := by
  rw [detect, List.mapM_cons]
  cases whenUsable (replies minor).file (.ok none) (VPUDevice.examine minor (replies minor) metrics) with
  | error fault => rfl
  | ok found =>
    rw [detect]
    cases List.mapM (fun minor =>
      whenUsable (replies minor).file (.ok none) (VPUDevice.examine minor (replies minor) metrics)) rest with
    | error fault => rfl
    | ok others =>
      cases found with
      | none => rfl
      | some device => rfl

def connected (replies : DeviceReplies) : Bool := whenUsable replies.file false (VPUDevice.beats replies)

def withDevice (table : DeviceTable) (device : Nat) (call : DevicesAnswer × DeviceTable) : DevicesAnswer × DeviceTable :=
  if device < (table.devices.getD []).length then call else (.nothing, table)

def createContext (table : DeviceTable) (desc phContext : Bool) (file : FileReply) : DevicesAnswer × DeviceTable :=
  if !desc || !phContext then (.result ZE_RESULT_ERROR_INVALID_NULL_POINTER, table)
  else if file.usable then (.result ZE_RESULT_SUCCESS, { table with contexts := table.contexts ++ [some ()] })
  else (.result ZE_RESULT_ERROR_OUT_OF_DEVICE_MEMORY, table)

def step (table : DeviceTable) : DevicesCall → DevicesAnswer × DeviceTable
  | .init flags metrics replies =>
    if flags ≠ 0 ∧ flags &&& ZE_INIT_FLAG_VPU_ONLY = 0 then (.result ZE_RESULT_ERROR_UNINITIALIZED, table)
    else
      match table.devices with
      | some devices => (.result (initStatus devices), table)
      | none =>
        match detect replies metrics minors with
        | .error fault => (faultAnswer fault, table)
        | .ok devices => (.result (initStatus devices), { table with devices := some devices })
  | .createContext desc phContext file =>
    table.withDevice 0 (table.createContext desc phContext file)
  | .destroyContext context =>
    withLive table.contexts context (.nothing, table) fun _ =>
      (.result ZE_RESULT_SUCCESS, { table with contexts := table.contexts.set context none })
  | .contextGetStatus context replies =>
    withLive table.contexts context (.nothing, table) fun _ => (connection (connected replies), table)
  | .deviceGetStatus device replies => table.withDevice device (connection (connected replies), table)
  | .getGlobalTimestamps device file job =>
    table.withDevice device (.result (whenUsable file ZE_RESULT_ERROR_OUT_OF_DEVICE_MEMORY job), table)
  | .getPciProperties device file stated link =>
    table.withDevice device
      (match whenUsable file none (VPUDevice.linkAddress (VPUDevice.getDeviceLink stated link)) with
      | none => .result ZE_RESULT_ERROR_DEVICE_LOST
      | some address => .pciAddress address,
      table)
  | .engineGetActivity device pStats file content =>
    table.withDevice device
      (if !pStats then .result ZE_RESULT_ERROR_INVALID_NULL_POINTER
      else
        match whenUsable file none (VPUDevice.activeTimeOf (VPUDevice.osiReadFile content)) with
        | none => .result ZE_RESULT_ERROR_UNINITIALIZED
        | some activeTimeUs => .activeTime activeTimeUs,
      table)
  | .elsewhereOpen | .elsewhereClose _ => (.nothing, table)

end DeviceTable

namespace DevicesState

variable {state : DevicesState} {table : DeviceTable}

structure Describes (state : DevicesState) (table : DeviceTable) : Prop where
  devices : state.devices = table.devices
  contexts : state.contexts.map (Option.map fun _ => ()) = table.contexts

theorem openDriverApi_fst (files : DeviceFiles) (file : FileReply) :
    (files.openDriverApi file).1 = if file.usable then some files.openFile.1 else none := by
  unfold DeviceFiles.openDriverApi DeviceFiles.osiOpen FileReply.usable
  cases file.granted with
  | false => rfl
  | true =>
    cases file.stated with
    | false => rfl
    | true =>
      cases file.character with
      | false => rfl
      | true =>
        by_cases linked : file.links ≤ 1
        · simp [linked, Nat.not_lt.mpr linked]
        · simp [linked, Nat.not_le.mp linked]

theorem withDriverApi_fst {α : Type} (files : DeviceFiles) (file : FileReply) (refused answer : α) :
    (files.withDriverApi file refused answer).1 = DeviceTable.whenUsable file refused answer := by
  have opened := openDriverApi_fst files file
  unfold DeviceFiles.withDriverApi DeviceTable.whenUsable
  split
  · rename_i closed
    rw [closed] at opened
    split at opened
    · cases opened
    · rename_i unusable
      rw [if_neg unusable]
  · rename_i taken
    rw [taken] at opened
    split at opened
    · rename_i usable
      rw [if_pos usable]
    · cases opened

/-- The loop over the minors finds what stands behind them. -/
theorem createDevices_fst (replies : Nat → DeviceReplies) (metrics : Bool) (among : List Nat) (files : DeviceFiles) :
    (createDevices replies metrics among files).1 = DeviceTable.detect replies metrics among := by
  induction among generalizing files with
  | nil => rfl
  | cons minor rest ih =>
    have examined : (VPUDevice.init minor (replies minor) metrics files).1 =
        DeviceTable.whenUsable (replies minor).file (.ok none) (VPUDevice.examine minor (replies minor) metrics) :=
      withDriverApi_fst files (replies minor).file _ _
    rw [createDevices, DeviceTable.detect_cons, ← examined]
    split
    · rename_i failed
      rw [failed]
    · rename_i found next tried
      rw [tried]
      dsimp only
      rw [← ih next]
      split
      · rename_i failed
        rw [failed]
      · rename_i created
        rw [created]

theorem Describes.live (describes : Describes state table) (context : Nat) :
    live table.contexts context = (live state.contexts context).map fun _ => () := by
  rw [← describes.contexts, live_map]

theorem Describes.withDevice (describes : Describes state table) (device : Nat)
    {call : DevicesAnswer × DevicesState} {spec : DevicesAnswer × DeviceTable} (same : call.1 = spec.1)
    (next : Describes call.2 spec.2) :
    (state.withDevice device call).1 = (table.withDevice device spec).1 ∧
      Describes (state.withDevice device call).2 (table.withDevice device spec).2 := by
  rw [DevicesState.withDevice, DeviceTable.withDevice, found, describes.devices]
  split
  · exact ⟨same, next⟩
  · exact ⟨rfl, describes⟩

/-- A call that only opens a file for its own duration changes no table. -/
theorem Describes.transient {α : Type} (describes : Describes state table) (file : FileReply) (refused answer : α)
    (reported : α → DevicesAnswer) :
    (state.transient (fun files => files.withDriverApi file refused answer) reported).1 =
        reported (DeviceTable.whenUsable file refused answer) ∧
      Describes (state.transient (fun files => files.withDriverApi file refused answer) reported).2 table :=
  ⟨congrArg reported (withDriverApi_fst state.files file refused answer), describes.devices, describes.contexts⟩

theorem Describes.init (describes : Describes state table) (flags : Nat) (metrics : Bool)
    (replies : Nat → DeviceReplies) :
    (state.step (.init flags metrics replies)).1 = (table.step (.init flags metrics replies)).1 ∧
      Describes (state.step (.init flags metrics replies)).2 (table.step (.init flags metrics replies)).2 := by
  have devices := describes.devices
  rw [DevicesState.step, DevicesState.init, DeviceTable.step, ← devices]
  split
  · exact ⟨rfl, describes⟩
  · cases initialised : state.devices with
    | some devices => exact ⟨rfl, describes⟩
    | none =>
      rw [initialised] at devices
      rw [← createDevices_fst replies metrics minors state.files]
      dsimp only
      cases createDevices replies metrics minors state.files with
      | mk created files =>
        cases created with
        | error fault => exact ⟨rfl, devices, describes.contexts⟩
        | ok found => exact ⟨rfl, rfl, describes.contexts⟩

theorem Describes.createContext (describes : Describes state table) (desc phContext : Bool) (file : FileReply) :
    (state.createContext desc phContext file).1 = (table.createContext desc phContext file).1 ∧
      Describes (state.createContext desc phContext file).2 (table.createContext desc phContext file).2 := by
  have opened := openDriverApi_fst state.files file
  rw [DevicesState.createContext, DeviceTable.createContext]
  split
  · exact ⟨rfl, describes⟩
  · split
    · rename_i refused
      rw [refused] at opened
      split at opened
      · cases opened
      · rename_i unusable
        rw [if_neg unusable]
        exact ⟨rfl, describes.devices, describes.contexts⟩
    · rename_i taken
      rw [taken] at opened
      split at opened
      · rename_i usable
        rw [if_pos usable]
        refine ⟨rfl, describes.devices, ?_⟩
        rw [List.map_append, describes.contexts]
        rfl
      · cases opened

theorem Describes.step (describes : Describes state table) (call : DevicesCall) :
    (state.step call).1 = (table.step call).1 ∧ Describes (state.step call).2 (table.step call).2 := by
  cases call with
  | init flags metrics replies => exact describes.init flags metrics replies
  | createContext desc phContext file =>
    obtain ⟨same, next⟩ := describes.createContext desc phContext file
    exact describes.withDevice 0 same next
  | destroyContext context =>
    rw [DevicesState.step, DeviceTable.step, withLive, withLive, describes.live]
    cases Library.live state.contexts context with
    | none => exact ⟨rfl, describes⟩
    | some vpuFd =>
      refine ⟨rfl, describes.devices, ?_⟩
      dsimp only
      rw [List.map_set, describes.contexts]
      rfl
  | contextGetStatus context replies =>
    rw [DevicesState.step, DeviceTable.step, withLive, withLive, describes.live]
    cases Library.live state.contexts context with
    | none => exact ⟨rfl, describes⟩
    | some vpuFd => exact describes.transient replies.file _ _ _
  | deviceGetStatus device replies =>
    obtain ⟨same, next⟩ := describes.transient replies.file false (VPUDevice.beats replies) connection
    exact describes.withDevice device same next
  | getGlobalTimestamps device file job =>
    obtain ⟨same, next⟩ := describes.transient file ZE_RESULT_ERROR_OUT_OF_DEVICE_MEMORY job .result
    exact describes.withDevice device same next
  | getPciProperties device file stated link =>
    exact describes.withDevice device (describes.transient file none _ _).1 (describes.transient file none _ _).2
  | engineGetActivity device pStats file content =>
    cases pStats with
    | false => exact describes.withDevice device rfl describes
    | true =>
      exact describes.withDevice device (describes.transient file none _ _).1 (describes.transient file none _ _).2
  | elsewhereOpen => exact ⟨rfl, describes.devices, describes.contexts⟩
  | elsewhereClose fd => exact ⟨rfl, describes.devices, describes.contexts⟩

/-- Whatever descriptors the kernel gives out, the driver answers as the table of its devices and contexts does: the
devices are those that the first initialisation found which no exception ended, in the order of their minors. -/
theorem devices_as_found (numbers : HandleNumbers) (others : List Nat) (calls : List DevicesCall) :
    answers DevicesState.step (new numbers others) calls = answers DeviceTable.step ⟨none, []⟩ calls := by
  have simulates : Simulates DevicesState.step DeviceTable.step (fun _ _ => True) Describes :=
    fun state table call describes _ => describes.step call
  exact simulates.answers_eq ⟨rfl, rfl⟩ (guarded_true _ calls)

end DevicesState

end NpuDriver
