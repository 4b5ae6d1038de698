import NpuDriver.Library.Ownership
import NpuDriver.LevelZero.QueueHandles

/-! Command queues as their descriptors and workload types say, and the kernel's queues with one owner each. -/

namespace NpuDriver

open Library ZeResult

/-- What the caller of a command queue relies on: the settings of its descriptor, and whether the workload is a
background one. `opened` tells that it was one before. -/
structure QueueSpec where
  priority : QueuePriority
  turbo : Bool
  inOrder : Bool
  synchronous : Bool
  background : Bool
  opened : Bool
deriving DecidableEq, Repr

/-- The priority of the workload. -/
def QueueSpec.current (spec : QueueSpec) : QueuePriority := if spec.background then .IDLE else spec.priority

/-- Queues without numbers: each has its own settings. -/
structure QueueTable where
  cmdQueueCreationCapability : Bool
  queues : List (Option QueueSpec)

namespace QueueTable

/-- Without the capability of the kernel there is neither a turbo mode nor an order. -/
def create (table : QueueTable) (desc : CommandQueueDesc) (turbo inOrder : Bool) (reply : Option Nat) :
    ZeResult × QueueTable :=
  let priority := toVPUDevicePriority desc.priority
  if table.cmdQueueCreationCapability then
    if reply = none then (ZE_RESULT_ERROR_UNINITIALIZED, table)
    else
      (ZE_RESULT_SUCCESS,
        { table with queues := table.queues ++ [some ⟨priority, turbo, inOrder, desc.synchronous, false, false⟩] })
  else if inOrder then (ZE_RESULT_ERROR_UNINITIALIZED, table)
  else
    (ZE_RESULT_SUCCESS,
      { table with queues := table.queues ++ [some ⟨priority, false, false, desc.synchronous, false, false⟩] })

def setWorkloadType (table : QueueTable) (queue : Nat) (spec : QueueSpec) (reply : Option Nat) :
    ZeWorkloadType → ZeResult × QueueTable
  | .DEFAULT =>
    (ZE_RESULT_SUCCESS, { table with queues := table.queues.set queue (some { spec with background := false }) })
  | .BACKGROUND =>
    if table.cmdQueueCreationCapability ∧ spec.opened = false ∧ reply = none then (ZE_RESULT_ERROR_UNKNOWN, table)
    else
      (ZE_RESULT_SUCCESS,
        { table with
          queues :=
            table.queues.set queue
              (some { spec with background := true, opened := table.cmdQueueCreationCapability }) })
  | .other => (ZE_RESULT_ERROR_INVALID_ENUMERATION, table)

def step (table : QueueTable) : QueueHandleCall → QueueHandleAnswer × QueueTable
  | .create hContext hDevice desc phCommandQueue reply =>
    match checkQueueDesc hContext hDevice desc phCommandQueue with
    | .error result => (.result result, table)
    | .ok (desc, turbo, inOrder) =>
      match table.create desc turbo inOrder reply with
      | (result, next) => (.result result, next)
  | .setWorkloadType queue workloadType reply =>
    withLive table.queues queue (.nothing, table) fun spec =>
      match table.setWorkloadType queue spec reply workloadType with
      | (result, next) => (.result result, next)
  | .submit queue =>
    withLive table.queues queue (.nothing, table) fun spec =>
      (.runs (some (spec.current, spec.turbo, spec.turbo)) spec.inOrder spec.synchronous, table)
  | .destroy queue _ _ =>
    withLive table.queues queue (.nothing, table) fun _ =>
      (.result ZE_RESULT_SUCCESS, { table with queues := table.queues.set queue none })

end QueueTable

/-- The numbers that the kernel gave and took back. -/
def queueLedger : List KernelQueueEvent → List (ResourceEvent Nat)
  | [] => []
  | .created id _ _ :: earlier => .obtained id :: queueLedger earlier
  | .destroyed id :: earlier => .released id :: queueLedger earlier
  | .kept _ :: earlier => queueLedger earlier

theorem held_queueLedger {events : List KernelQueueEvent} {id : Nat} :
    Held (queueLedger events) id ↔ kernelQueue events id ≠ none := by
  induction events with
  | nil => simp [queueLedger, Held, kernelQueue]
  | cons event earlier ih =>
    cases event with
    | created other priority turbo =>
      by_cases same : id = other
      · simp [queueLedger, Held, kernelQueue, same]
      · simp [queueLedger, Held, kernelQueue, same, ih]
    | destroyed other =>
      by_cases same : id = other
      · simp [queueLedger, Held, kernelQueue, same]
      · simp [queueLedger, Held, kernelQueue, same, ih]
    | kept other => exact ih

namespace VPUDeviceQueue

/-- The kernel's queues of a device queue. -/
def Owns : VPUDeviceQueue → Nat → Prop
  | .legacy _ _, _ => False
  | .managed queue, id => id = queue.defaultId ∨ id = queue.backgroundId

theorem toDefaultPriority_owns (vpuQueue : VPUDeviceQueue) (id : Nat) :
    vpuQueue.toDefaultPriority.Owns id ↔ vpuQueue.Owns id := by
  cases vpuQueue with
  | legacy priority defaultPriority => exact Iff.rfl
  | managed queue => exact Iff.rfl

end VPUDeviceQueue

/-- A handle does what its settings say. -/
inductive HandleStands (events : List KernelQueueEvent) : Bool → QueueHandle → QueueSpec → Prop where
  | legacy {spec : QueueSpec} (turbo : spec.turbo = false) (inOrder : spec.inOrder = false) :
    HandleStands events false ⟨.legacy spec.current spec.priority, spec.synchronous⟩ spec
  | managed {spec : QueueSpec} {defaultId backgroundId : Nat} {lastWaitBo : Option VPUBufferObject}
    (default : kernelQueue events defaultId = some (spec.priority, spec.turbo))
    (background : spec.opened = true → kernelQueue events backgroundId = some (.IDLE, spec.turbo))
    (opened : spec.opened = false ↔ backgroundId = defaultId) (used : spec.background = true → spec.opened = true) :
    HandleStands events true
      ⟨.managed ⟨if spec.background then backgroundId else defaultId, defaultId, backgroundId, spec.inOrder, spec.turbo,
        lastWaitBo⟩, spec.synchronous⟩ spec

namespace HandleStands

variable {events later : List KernelQueueEvent} {capability : Bool} {handle : QueueHandle} {spec : QueueSpec} {id : Nat}

/-- The kernel has what a handle owns. -/
theorem kernel (stands : HandleStands events capability handle spec) (owns : handle.vpuQueue.Owns id) :
    kernelQueue events id ≠ none := by
  cases stands with
  | legacy => cases owns
  | managed default background opened =>
    rcases owns with rfl | rfl
    · simp [default]
    · by_cases same : spec.opened = true
      · simp [background same]
      · rw [opened.mp (Bool.not_eq_true _ ▸ same), default]
        simp

/-- Events for other queues are not noticed. -/
theorem unaffected (stands : HandleStands events capability handle spec)
    (same : ∀ id, handle.vpuQueue.Owns id → kernelQueue later id = kernelQueue events id) :
    HandleStands later capability handle spec := by
  cases stands with
  | legacy turbo inOrder => exact .legacy turbo inOrder
  | managed default background opened used =>
    refine .managed ?_ ?_ opened used
    · rw [same _ (.inl rfl), default]
    · intro twice
      rw [same _ (.inr rfl), background twice]

theorem submitted (stands : HandleStands events capability handle spec) :
    handle.vpuQueue.submitted events = some (spec.current, spec.turbo, spec.turbo) ∧
      handle.vpuQueue.inOrder = spec.inOrder ∧ handle.synchronous = spec.synchronous := by
  cases stands with
  | legacy turbo inOrder => exact ⟨by rw [turbo]; rfl, inOrder.symm, rfl⟩
  | managed default background opened used =>
    refine ⟨?_, rfl, rfl⟩
    cases workload : spec.background with
    | true => simp [VPUDeviceQueue.submitted, QueueSpec.current, workload, background (used workload)]
    | false => simp [VPUDeviceQueue.submitted, QueueSpec.current, workload, default]

theorem toDefaultPriority (stands : HandleStands events capability handle spec) :
    HandleStands events capability { handle with vpuQueue := handle.vpuQueue.toDefaultPriority }
      { spec with background := false } := by
  cases stands with
  | legacy turbo inOrder =>
    exact @HandleStands.legacy _ { spec with background := false } turbo inOrder
  | managed default background opened used =>
    exact @HandleStands.managed _ { spec with background := false } _ _ _ default background opened (by simp)

end HandleStands

/-- A queue that the kernel refused to destroy. -/
def Kept (events : List KernelQueueEvent) (id : Nat) : Prop := .kept id ∈ events

theorem kernelQueue_created {events : List KernelQueueEvent} {id other : Nat} (priority : QueuePriority) (turbo : Bool)
    (different : other ≠ id) : kernelQueue (.created id priority turbo :: events) other = kernelQueue events other := by
  simp [kernelQueue, different]

theorem kernelQueue_destroy {events : List KernelQueueEvent} {id other : Nat} (accepted : Bool)
    (different : other ≠ id) : kernelQueue (commandQueueDestroy events accepted id) other = kernelQueue events other := by
  cases accepted with
  | true => simp [commandQueueDestroy, kernelQueue, different]
  | false => simp [commandQueueDestroy, kernelQueue]

section Accounted

variable {events : List KernelQueueEvent} {owned : Nat → Nat → Prop} {owner id : Nat}

theorem accounted_created (accounted : Accounted (queueLedger events) owned (Kept events))
    (fresh : kernelQueue events id = none) (owner : Nat) (priority : QueuePriority) (turbo : Bool) :
    Accounted (queueLedger (.created id priority turbo :: events))
      (fun other kept => owned other kept ∨ other = owner ∧ kept = id) (Kept (.created id priority turbo :: events)) := by
  have unheld : ¬ Held (queueLedger events) id := by
    rw [held_queueLedger, fresh]
    simp
  apply (accounted.obtain unheld owner).congr
  · intro other kept
    exact Iff.rfl
  · intro kept
    simp [Kept]

theorem accounted_destroy (accounted : Accounted (queueLedger events) owned (Kept events)) (owns : owned owner id)
    (accepted : Bool) :
    Accounted (queueLedger (commandQueueDestroy events accepted id)) (fun other kept => owned other kept ∧ kept ≠ id)
      (Kept (commandQueueDestroy events accepted id)) := by
  cases accepted with
  | true =>
    apply (accounted.release owner owns).congr
    · intro other kept
      exact Iff.rfl
    · intro kept
      simp [Kept, commandQueueDestroy]
  | false =>
    apply (accounted.lose owns).congr
    · intro other kept
      exact Iff.rfl
    · intro kept
      simp [Kept, commandQueueDestroy, or_comm]

end Accounted

namespace QueueSystem

/-- The numbers behind a handle of the system. -/
abbrev Owns (system : QueueSystem) : Nat → Nat → Prop :=
  TableOwns (fun handle : QueueHandle => handle.vpuQueue.Owns) system.queues

variable {system : QueueSystem} {table : QueueTable} {handle : QueueHandle} {spec : QueueSpec} {queue : Nat}

/-- The handles do what the table says, and each number of the kernel has one of them as its owner. -/
structure Stands (system : QueueSystem) (table : QueueTable) : Prop where
  capability : table.cmdQueueCreationCapability = system.cmdQueueCreationCapability
  handles : TablesRelated (HandleStands system.events system.cmdQueueCreationCapability) system.queues table.queues
  accounted : Accounted (queueLedger system.events) system.Owns (Kept system.events)

/-- The kernel has no queue under a number that it gives out. -/
def FreshReply (system : QueueSystem) : QueueHandleCall → Prop
  | .create _ _ _ _ (some id) | .setWorkloadType _ _ (some id) => kernelQueue system.events id = none
  | _ => True

instance instDecidableFreshReply : DecidablePred system.FreshReply
  | .create _ _ _ _ (some id) | .setWorkloadType _ _ (some id) =>
    inferInstanceAs (Decidable (kernelQueue system.events id = none))
  | .create _ _ _ _ none | .setWorkloadType _ _ none | .submit _ | .destroy .. => instDecidableTrue

theorem Stands.new (capability : Bool) : Stands (new capability) ⟨capability, []⟩ := by
  refine ⟨rfl, .nil _, Accounted.nothing.congr ?_ ?_⟩
  · intro owner id
    exact TableOwns.nil owner id
  · intro id
    simp [Kept, QueueSystem.new]

/-- Another handle keeps what it has when the kernel answers for numbers that it does not own. -/
theorem Stands.others (stands : Stands system table) (events : List KernelQueueEvent)
    (same : ∀ other object id, live system.queues other = some object → object.vpuQueue.Owns id →
      kernelQueue events id = kernelQueue system.events id) :
    TablesRelated (HandleStands events system.cmdQueueCreationCapability) system.queues table.queues := by
  apply stands.handles.mono
  intro other object partner found handles
  exact handles.unaffected fun id owns => same other object id found owns

/-- A new number is nobody's. -/
theorem Stands.unowned (stands : Stands system table) {id other owned : Nat} (fresh : kernelQueue system.events id = none)
    {object : QueueHandle} (found : live system.queues other = some object) (owns : object.vpuQueue.Owns owned) :
    owned ≠ id := by
  rintro rfl
  obtain ⟨partner, -, related⟩ := stands.handles.found found
  exact related.kernel owns fresh

/-- A handle comes to the end of the table, with a number of its own or without one. -/
theorem Stands.append (stands : Stands system table) {events : List KernelQueueEvent}
    (others : TablesRelated (HandleStands events system.cmdQueueCreationCapability) system.queues table.queues)
    (stands' : HandleStands events system.cmdQueueCreationCapability handle spec)
    (accounted : Accounted (queueLedger events)
      (fun other id => system.Owns other id ∨ other = system.queues.length ∧ handle.vpuQueue.Owns id) (Kept events)) :
    Stands { system with events := events, queues := system.queues ++ [some handle] }
      { table with queues := table.queues ++ [some spec] } :=
  ⟨stands.capability, others.append stands', accounted.congr (TableOwns.append system.queues handle) fun _ => Iff.rfl⟩

/-- A handle changes what it does, with the same numbers. -/
theorem Stands.set (stands : Stands system table) (found : live system.queues queue = some handle)
    {changed : QueueHandle} {next : QueueSpec}
    (stands' : HandleStands system.events system.cmdQueueCreationCapability changed next)
    (same : ∀ id, changed.vpuQueue.Owns id ↔ handle.vpuQueue.Owns id) :
    Stands { system with queues := system.queues.set queue (some changed) }
      { table with queues := table.queues.set queue (some next) } := by
  refine ⟨stands.capability, stands.handles.set (live_lt found) (.some stands'), ?_⟩
  apply stands.accounted.congr
  · intro other id
    apply (TableOwns.set found (some changed) other id).trans
    split
    · rename_i self
      subst self
      have here : system.Owns other id ↔ handle.vpuQueue.Owns id := TableOwns.found found id
      rw [here, ← same]
      simp
    · exact Iff.rfl
  · intro id
    exact Iff.rfl

theorem Stands.add (stands : Stands system table) (desc : CommandQueueDesc) (turbo inOrder : Bool)
    (reply : Option Nat) (fresh : ∀ id, reply = some id → kernelQueue system.events id = none) :
    (system.add desc turbo inOrder reply).1 = (table.create desc turbo inOrder reply).1 ∧
      Stands (system.add desc turbo inOrder reply).2 (table.create desc turbo inOrder reply).2 := by
  obtain ⟨capability, events, queues⟩ := system
  obtain ⟨granted, specs⟩ := table
  obtain rfl : granted = capability := stands.capability
  cases granted with
  | false =>
    cases inOrder with
    | true => exact ⟨rfl, stands⟩
    | false =>
      refine ⟨rfl, stands.append stands.handles ?_ ?_⟩
      · exact @HandleStands.legacy _ ⟨toVPUDevicePriority desc.priority, false, false, desc.synchronous, false, false⟩ rfl rfl
      · apply stands.accounted.congr
        · intro other id
          simp [VPUDeviceQueue.Owns]
        · intro id
          exact Iff.rfl
  | true =>
    cases reply with
    | none => exact ⟨rfl, stands⟩
    | some id =>
      have new := fresh id rfl
      refine ⟨rfl, stands.append (stands.others _ ?_) ?_ ?_⟩
      · intro other object owned found owns
        exact kernelQueue_created _ _ (stands.unowned new found owns)
      · exact @HandleStands.managed _ ⟨toVPUDevicePriority desc.priority, turbo, inOrder, desc.synchronous, false, false⟩
          _ _ _ (by simp [kernelQueue]) (by simp) (by simp) (by simp)
      · apply (accounted_created stands.accounted new queues.length _ _).congr
        · intro other owned
          simp [VPUDeviceQueue.Owns]
        · intro owned
          exact Iff.rfl

/-- The destructor does not touch the queues of the other handles. -/
theorem kernelQueue_release {events : List KernelQueueEvent} {vpuQueue : VPUDeviceQueue} {id : Nat}
    (acceptsBackground acceptsDefault : Bool) (unowned : ¬ vpuQueue.Owns id) :
    kernelQueue (vpuQueue.release events acceptsBackground acceptsDefault) id = kernelQueue events id := by
  cases vpuQueue with
  | legacy priority defaultPriority => rfl
  | managed managed =>
    have other := not_or.mp unowned
    unfold VPUDeviceQueue.release
    rw [kernelQueue_destroy _ other.1]
    split
    · rw [kernelQueue_destroy _ other.2]
    · rfl

theorem release_opened (events : List KernelQueueEvent) {managed : VPUDeviceQueueManaged}
    (opened : managed.backgroundId ≠ managed.defaultId) (acceptsBackground acceptsDefault : Bool) :
    VPUDeviceQueue.release events acceptsBackground acceptsDefault (.managed managed) =
      commandQueueDestroy (commandQueueDestroy events acceptsBackground managed.backgroundId) acceptsDefault
        managed.defaultId := by
  rw [VPUDeviceQueue.release, if_pos opened]

theorem release_unopened (events : List KernelQueueEvent) {managed : VPUDeviceQueueManaged}
    (unopened : managed.backgroundId = managed.defaultId) (acceptsBackground acceptsDefault : Bool) :
    VPUDeviceQueue.release events acceptsBackground acceptsDefault (.managed managed) =
      commandQueueDestroy events acceptsDefault managed.defaultId := by
  rw [VPUDeviceQueue.release, if_neg (not_not.mpr unopened)]

/-- It destroys each queue of its handle once, and nothing else. -/
theorem accounted_release {events : List KernelQueueEvent} {owned : Nat → Nat → Prop} {owner : Nat}
    {vpuQueue : VPUDeviceQueue} (accounted : Accounted (queueLedger events) owned (Kept events))
    (owns : ∀ id, vpuQueue.Owns id → owned owner id) (acceptsBackground acceptsDefault : Bool) :
    Accounted (queueLedger (vpuQueue.release events acceptsBackground acceptsDefault))
      (fun other id => owned other id ∧ ¬ vpuQueue.Owns id)
      (Kept (vpuQueue.release events acceptsBackground acceptsDefault)) := by
  cases vpuQueue with
  | legacy priority defaultPriority =>
    apply accounted.congr
    · intro other id
      simp [VPUDeviceQueue.Owns]
    · intro id
      exact Iff.rfl
  | managed managed =>
    by_cases opened : managed.backgroundId ≠ managed.defaultId
    · have background := accounted_destroy accounted (owns _ (.inr rfl)) acceptsBackground
      have both := accounted_destroy background ⟨owns _ (.inl rfl), Ne.symm opened⟩ acceptsDefault
      rw [release_opened events opened]
      apply both.congr
      · intro other id
        simp only [VPUDeviceQueue.Owns, not_or]
        tauto
      · intro id
        exact Iff.rfl
    · rw [release_unopened events (not_not.mp opened)]
      apply (accounted_destroy accounted (owns _ (.inl rfl)) acceptsDefault).congr
      · intro other id
        simp [VPUDeviceQueue.Owns, not_not.mp opened]
      · intro id
        exact Iff.rfl

theorem Stands.destroy (stands : Stands system table) (found : live system.queues queue = some handle)
    (acceptsBackground acceptsDefault : Bool) :
    Stands
      { system with
        events := handle.vpuQueue.release system.events acceptsBackground acceptsDefault
        queues := system.queues.set queue none }
      { table with queues := table.queues.set queue none } := by
  have owner : ∀ id, handle.vpuQueue.Owns id → system.Owns queue id := fun id owns => ⟨handle, found, owns⟩
  refine ⟨stands.capability, ?_, ?_⟩
  · apply (stands.handles.set (live_lt found) .none).mono
    intro other object partner member stands'
    rw [live_set (live_lt found)] at member
    split at member
    · cases member
    · rename_i different
      apply stands'.unaffected
      intro id owns
      apply kernelQueue_release
      intro self
      exact different (stands.accounted.apart other queue id ⟨object, member, owns⟩ (owner id self))
  · apply (accounted_release stands.accounted owner acceptsBackground acceptsDefault).congr
    · intro other id
      apply (TableOwns.set found none other id).trans
      split
      · rename_i self
        subst self
        constructor
        · rintro ⟨object, absent, -⟩
          cases absent
        · rintro ⟨owns, others⟩
          exact absurd ((TableOwns.found found id).mp owns) others
      · rename_i different
        constructor
        · intro owns
          exact ⟨owns, fun self => different (stands.accounted.apart other queue id owns (owner id self))⟩
        · intro owns
          exact owns.1
    · intro id
      exact Iff.rfl

/-- A second queue for a handle that has one. -/
theorem Stands.widen (stands : Stands system table) (found : live system.queues queue = some handle)
    {changed : QueueHandle} {next : QueueSpec} {id : Nat} {priority : QueuePriority} {turbo : Bool}
    (fresh : kernelQueue system.events id = none)
    (stands' : HandleStands (.created id priority turbo :: system.events) system.cmdQueueCreationCapability changed next)
    (owns : ∀ other, changed.vpuQueue.Owns other ↔ handle.vpuQueue.Owns other ∨ other = id) :
    Stands
      { system with
        events := .created id priority turbo :: system.events
        queues := system.queues.set queue (some changed) }
      { table with queues := table.queues.set queue (some next) } := by
  have others := stands.others (.created id priority turbo :: system.events)
    fun other object owned member owns => kernelQueue_created priority turbo (stands.unowned fresh member owns)
  refine ⟨stands.capability, others.set (live_lt found) (.some stands'), ?_⟩
  apply (accounted_created stands.accounted fresh queue priority turbo).congr
  · intro other owned
    apply (TableOwns.set found (some changed) other owned).trans
    split
    · rename_i self
      subst self
      have here : system.Owns other owned ↔ handle.vpuQueue.Owns owned := TableOwns.found found owned
      rw [here]
      simp [owns]
    · rename_i different
      simp [different]
  · intro owned
    exact Iff.rfl

theorem Stands.toBackgroundPriority (stands : Stands system table) (found : live system.queues queue = some handle)
    (handles : HandleStands system.events system.cmdQueueCreationCapability handle spec) (reply : Option Nat)
    (fresh : ∀ id, reply = some id → kernelQueue system.events id = none) :
    (system.setWorkloadType queue handle reply .BACKGROUND).1 = (table.setWorkloadType queue spec reply .BACKGROUND).1 ∧
      Stands (system.setWorkloadType queue handle reply .BACKGROUND).2
        (table.setWorkloadType queue spec reply .BACKGROUND).2 := by
  obtain ⟨capability, events, queues⟩ := system
  obtain ⟨granted, specs⟩ := table
  obtain rfl : granted = capability := stands.capability
  cases handles with
  | legacy turbo inOrder =>
    refine ⟨rfl, stands.set found ?_ fun _ => Iff.rfl⟩
    exact @HandleStands.legacy _ { spec with background := true, opened := false } turbo inOrder
  | managed default background opened used =>
    rename_i defaultId backgroundId lastWaitBo
    cases before : spec.opened with
    | true =>
      have apart : backgroundId ≠ defaultId := by
        intro same
        rw [opened.mpr same] at before
        cases before
      simp only [QueueSystem.setWorkloadType, VPUDeviceQueue.toBackgroundPriority, apart, ↓reduceIte,
        QueueTable.setWorkloadType, before, Bool.true_eq_false, false_and, and_false]
      refine ⟨trivial, stands.set found ?_ fun _ => Iff.rfl⟩
      exact @HandleStands.managed _ { spec with background := true, opened := true } _ _ _ default
        (fun _ => background before) (by simp [apart]) fun _ => rfl
    | false =>
      obtain rfl := opened.mp before
      cases reply with
      | none =>
        simp only [QueueSystem.setWorkloadType, VPUDeviceQueue.toBackgroundPriority, commandQueueCreate, ↓reduceIte,
          QueueTable.setWorkloadType, before, and_self]
        exact ⟨trivial, stands⟩
      | some id =>
        have new := fresh id rfl
        have apart : id ≠ backgroundId := by
          rintro rfl
          rw [default] at new
          cases new
        simp only [QueueSystem.setWorkloadType, VPUDeviceQueue.toBackgroundPriority, commandQueueCreate, ↓reduceIte,
          QueueTable.setWorkloadType, reduceCtorEq, and_false]
        refine ⟨trivial, stands.widen found new ?_ ?_⟩
        · refine @HandleStands.managed _ { spec with background := true, opened := true } _ _ _ ?_ ?_ ?_ fun _ => rfl
          · rw [kernelQueue_created _ _ (Ne.symm apart), default]
          · intro _
            simp [kernelQueue]
          · simp [apart]
        · intro other
          simp [VPUDeviceQueue.Owns]

/-- The same answer, and states that stand for each other. -/
def Alike (left : QueueHandleAnswer × QueueSystem) (right : QueueHandleAnswer × QueueTable) : Prop :=
  left.1 = right.1 ∧ Stands left.2 right.2

theorem step_simulates : Simulates step QueueTable.step FreshReply Stands := by
  intro system table call stands fresh
  cases call with
  | create hContext hDevice desc phCommandQueue reply =>
    simp only [step, QueueSystem.create, QueueTable.step]
    cases checkQueueDesc hContext hDevice desc phCommandQueue with
    | error result => exact ⟨rfl, stands⟩
    | ok checked =>
      obtain ⟨desc, turbo, inOrder⟩ := checked
      obtain ⟨same, next⟩ := stands.add desc turbo inOrder reply fun id given => by
        subst given
        exact fresh
      exact ⟨congrArg QueueHandleAnswer.result same, next⟩
  | setWorkloadType queue workloadType reply =>
    apply stands.handles.withLive Alike queue ⟨rfl, stands⟩
    intro handle spec found handles
    cases workloadType with
    | DEFAULT => exact ⟨rfl, stands.set found handles.toDefaultPriority handle.vpuQueue.toDefaultPriority_owns⟩
    | BACKGROUND =>
      obtain ⟨same, next⟩ := stands.toBackgroundPriority found handles reply fun id given => by
        subst given
        exact fresh
      exact ⟨congrArg QueueHandleAnswer.result same, next⟩
    | other => exact ⟨rfl, stands⟩
  | submit queue =>
    apply stands.handles.withLive Alike queue ⟨rfl, stands⟩
    intro handle spec found handles
    obtain ⟨settings, inOrder, synchronous⟩ := handles.submitted
    refine ⟨?_, stands⟩
    rw [settings, inOrder, synchronous]
  | destroy queue acceptsBackground acceptsDefault =>
    apply stands.handles.withLive Alike queue ⟨rfl, stands⟩
    intro handle spec found handles
    exact ⟨rfl, stands.destroy found acceptsBackground acceptsDefault⟩

/-- Whatever queues there are and in whatever order they are used, each command buffer runs with the priority, the
turbo mode and the order that its own handle stands for, and each call answers as if there were no other handle. -/
theorem queues_as_described (capability : Bool) {calls : List QueueHandleCall}
    (fresh : Guarded (fun system call => (step system call).2) FreshReply (new capability) calls) :
    answers step (new capability) calls = answers QueueTable.step ⟨capability, []⟩ calls :=
  step_simulates.answers_eq (Stands.new capability) fresh

/-- Two queues: a normal one with the turbo mode that works in the background for a while, and one of high priority. -/
def sampleQueueCalls : List QueueHandleCall :=
  [.create true true (some ⟨0, false, .NORMAL, some (.npuExt true)⟩) true (some 1), .setWorkloadType 0 .BACKGROUND (some 2),
    .create true true (some ⟨0, true, .PRIORITY_HIGH, none⟩) true (some 3), .submit 0, .submit 1,
    .setWorkloadType 0 .DEFAULT none, .submit 0, .destroy 0 true true, .submit 1]

theorem queues_as_described_two :
    answers step (new true) sampleQueueCalls = answers QueueTable.step ⟨true, []⟩ sampleQueueCalls :=
  queues_as_described true (by decide)

example : answers QueueTable.step ⟨true, []⟩ sampleQueueCalls =
    [.result ZE_RESULT_SUCCESS, .result ZE_RESULT_SUCCESS, .result ZE_RESULT_SUCCESS,
      .runs (some (.IDLE, true, true)) false false, .runs (some (.REALTIME, false, false)) false true,
      .result ZE_RESULT_SUCCESS, .runs (some (.NORMAL, true, true)) false false, .result ZE_RESULT_SUCCESS,
      .runs (some (.REALTIME, false, false)) false true] := by decide

/-- At any time the kernel holds the queues of the handles that are not destroyed, each of one handle only, and those
that it refused to destroy, and it was asked to destroy what it held only. -/
theorem kernel_queues_accounted (capability : Bool) {calls : List QueueHandleCall}
    (fresh : Guarded (fun system call => (step system call).2) FreshReply (new capability) calls) :
    Accounted (queueLedger (final step (new capability) calls).events) (final step (new capability) calls).Owns
      (Kept (final step (new capability) calls).events) :=
  (step_simulates.related_final (Stands.new capability) fresh).accounted

theorem kernel_queues_accounted_two :
    Accounted (queueLedger (final step (new true) sampleQueueCalls).events) (final step (new true) sampleQueueCalls).Owns
      (Kept (final step (new true) sampleQueueCalls).events) :=
  kernel_queues_accounted true (by decide)

end QueueSystem

end NpuDriver
