import NpuDriver.Library.Runs
import NpuDriver.Memory.GemHandles
import Mathlib.Data.List.MinMax
import Mathlib.Data.List.Nodup

/-! Which buffer object closes a handle, and how often. -/

namespace NpuDriver

open Library
open OrderDual (toDual)

/-- The outcome of tracking a new object that carries a handle. -/
def Adoption (tracker : BufferTracker) (location : Location) (handle : Nat)
    (tracked : Option VPUBufferObject × BufferTracker) : Prop :=
  tracked.2.created = tracker.created + 1 ∧
    match tracked.1 with
    | none => tracked.2.trackedBuffers = tracker.trackedBuffers
    | some object =>
      object.id = tracker.created ∧ object.handle = handle ∧
        ∀ entry ∈ tracked.2.trackedBuffers,
          entry ∈ tracker.trackedBuffers ∨ entry = (toDual object.basePtr, ⟨object, location⟩)

namespace BufferTracker

theorem track_adoption (tracker : BufferTracker) {object : VPUBufferObject} (location : Location)
    (counted : object.id = tracker.created) :
    Adoption tracker location object.handle (tracker.track object location) := by
  rw [track]
  split
  · exact ⟨rfl, rfl⟩
  · refine ⟨rfl, counted, rfl, fun entry member => ?_⟩
    rcases mem_emplace member with rfl | former
    · exact .inr rfl
    · exact .inl former

theorem createBufferObject_adoption (tracker : BufferTracker) (size : Nat) {mappable : Bool}
    (location : Location) {answer : BufferAnswer} (mapped : (mappable && answer.basePtr == 0) = false) :
    Adoption tracker location answer.handle
      (tracker.createBufferObject size mappable location (some answer)) := by
  rw [createBufferObject]
  simp only [mapped, Bool.false_eq_true, ↓reduceIte]
  exact tracker.track_adoption location rfl

theorem importBufferObject_adoption (tracker : BufferTracker) (location : Location) {answer : BufferAnswer}
    (size : Nat) (mapped : answer.basePtr ≠ 0) :
    Adoption tracker location answer.handle (tracker.importBufferObject location (some (answer, size))) := by
  rw [importBufferObject]
  simp only [mapped, ↓reduceIte]
  exact tracker.track_adoption location rfl

theorem importUserPtr_adoption (tracker : BufferTracker) (userPtr size handle vpuAddr : Nat)
    (constructed : (tracker.importUserPtr userPtr size (some (handle, vpuAddr))).2.created ≠ tracker.created) :
    Adoption tracker .UserPtr handle (tracker.importUserPtr userPtr size (some (handle, vpuAddr))) := by
  revert constructed
  rw [importUserPtr]
  intro constructed
  split at constructed
  · exact absurd rfl constructed
  · rename_i checked
    rw [if_neg checked]
    split at constructed
    · exact absurd rfl constructed
    · rename_i unknown
      rw [if_neg unknown]
      simp only at constructed ⊢
      split at constructed
      · exact absurd rfl constructed
      · rename_i inside
        rw [if_neg inside]
        exact tracker.track_adoption .UserPtr rfl

end BufferTracker

theorem MemoryKind.external_isExternal (kind : MemoryKind) : kind.external.isExternal = true := by
  cases kind <;> decide

namespace GemState

/-- Live objects carry open handles, objects that share one are external, and the log agrees with the open
handles. -/
structure Owned (state : GemState) : Prop where
  carried : ∀ bo ∈ state.objects, bo.object.handle ∈ state.handles.map Prod.fst
  exclusive : ∀ bo ∈ state.objects, ∀ other ∈ state.objects, bo.object.handle = other.object.handle →
    bo.object.id = other.object.id ∨ bo.location.isExternal = true ∧ other.location.isExternal = true
  distinct : (state.objects.map fun bo => bo.object.id).Nodup
  counted : ∀ bo ∈ state.objects, bo.object.id < state.tracker.created
  tracked : ∀ entry ∈ state.tracker.trackedBuffers,
    entry.1 = toDual entry.2.object.basePtr ∧ entry.2 ∈ state.objects
  held : ∀ handle ∈ state.handles.map Prod.fst, Held state.log handle
  balanced : Balanced state.log
  orphaned : state.orphaned = []

theorem initial_owned (numbers : HandleNumbers) (pageSize : Nat) (userPtrCapability : Bool) :
    (initial numbers pageSize userPtrCapability).Owned where
  carried _ member := by cases member
  exclusive _ member := by cases member
  distinct := List.nodup_nil
  counted _ member := by cases member
  tracked _ member := by cases member
  held _ member := by cases member
  balanced := trivial
  orphaned := rfl

variable {state : GemState}

/-- A new handle is carried by nobody yet. -/
theorem openHandle_owned (owned : state.Owned) (memory : GemMemory) :
    (state.openHandle memory).2.Owned ∧
      (state.openHandle memory).1 ∈ (state.openHandle memory).2.handles.map Prod.fst ∧
      ∀ bo ∈ state.objects, bo.object.handle ≠ (state.openHandle memory).1 := by
  have unused := state.numbers.unused state.opened (state.handles.map Prod.fst)
  refine ⟨?_, List.mem_cons_self, fun bo member same => ?_⟩
  · constructor
    · intro bo member
      exact List.mem_cons_of_mem _ (owned.carried bo member)
    · exact owned.exclusive
    · exact owned.distinct
    · exact owned.counted
    · exact owned.tracked
    · intro handle member
      rcases List.mem_cons.mp member with new | former
      · exact .inl new
      · exact .inr (owned.held handle former)
    · exact owned.balanced
    · exact owned.orphaned
  · have taken := owned.carried bo member
    rw [same] at taken
    exact unused taken

/-- An import leaves everything but the open handles and the log. -/
theorem importBuffer_owned (owned : state.Owned) (memory : GemMemory) :
    (state.importBuffer memory).2.Owned ∧
      (state.importBuffer memory).1 ∈ (state.importBuffer memory).2.handles.map Prod.fst ∧
      (state.importBuffer memory).2.objects = state.objects := by
  rw [importBuffer]
  cases known : state.handles.find? (fun entry => entry.2 = memory) with
  | none =>
    obtain ⟨kept, isOpen, -⟩ := openHandle_owned owned memory
    exact ⟨kept, isOpen, rfl⟩
  | some entry =>
    have isOpen : entry.1 ∈ state.handles.map Prod.fst :=
      List.mem_map.mpr ⟨entry, List.mem_of_find?_eq_some known, rfl⟩
    refine ⟨?_, isOpen, rfl⟩
    exact { owned with
      held := fun handle member => .inr (owned.held handle member)
      balanced := owned.balanced }

/-- Closing an open handle that no live object carries. -/
theorem closeBuffer_owned (owned : state.Owned) (isOpen : handle ∈ state.handles.map Prod.fst)
    (free : ∀ bo ∈ state.objects, bo.object.handle ≠ handle) : (state.closeBuffer handle).Owned := by
  constructor
  · intro bo member
    obtain ⟨entry, listed, same⟩ := List.mem_map.mp (owned.carried bo member)
    apply List.mem_map.mpr
    refine ⟨entry, List.mem_filter.mpr ⟨listed, ?_⟩, same⟩
    have other : entry.1 ≠ handle := same ▸ free bo member
    simpa using other
  · exact owned.exclusive
  · exact owned.distinct
  · exact owned.counted
  · exact owned.tracked
  · intro other member
    obtain ⟨entry, left, rfl⟩ := List.mem_map.mp member
    obtain ⟨listed, different⟩ := List.mem_filter.mp left
    exact ⟨by simpa using different, owned.held entry.1 (List.mem_map.mpr ⟨entry, listed, rfl⟩)⟩
  · exact ⟨owned.held handle isOpen, owned.balanced⟩
  · have nobody : state.carriers handle = [] := by
      apply List.filter_eq_nil_iff.mpr
      intro bo member
      simpa using free bo member
    rw [closeBuffer]
    simp only
    rw [nobody, owned.orphaned]
    rfl

theorem create_owned (owned : state.Owned) (mappable : Bool) (reply : BufferReply) :
    (state.create mappable reply).2.Owned ∧
      ∀ answer, (state.create mappable reply).1 = some answer →
        answer.handle ∈ (state.create mappable reply).2.handles.map Prod.fst ∧
          (∀ bo ∈ (state.create mappable reply).2.objects, bo.object.handle ≠ answer.handle) ∧
            (mappable && answer.basePtr == 0) = false := by
  obtain ⟨kept, isOpen, free⟩ := openHandle_owned owned (.own state.opened)
  rw [create]
  split
  · exact ⟨owned, fun _ failed => by cases failed⟩
  · simp only
    split
    · exact ⟨closeBuffer_owned kept isOpen free, fun _ failed => by cases failed⟩
    · rename_i mapped
      refine ⟨kept, fun answer created => ?_⟩
      cases created
      refine ⟨isOpen, free, ?_⟩
      rw [Bool.not_eq_true, Bool.or_eq_false_iff] at mapped
      exact mapped.2

/-- A new object may share its handle only when it and the others are external. -/
theorem adopt_owned (owned : state.Owned) {location : Location} {handle : Nat}
    {tracked : Option VPUBufferObject × BufferTracker} (adoption : Adoption state.tracker location handle tracked)
    (isOpen : handle ∈ state.handles.map Prod.fst)
    (shared : ∀ bo ∈ state.objects, bo.object.handle = handle →
      bo.location.isExternal = true ∧ location.isExternal = true) :
    (state.adopt location handle tracked).Owned := by
  obtain ⟨object, tracker⟩ := tracked
  obtain ⟨created, outcome⟩ := adoption
  simp only at created
  have older : ∀ bo ∈ state.objects, bo.object.id < tracker.created := by
    intro bo member
    rw [created]
    exact Nat.lt_succ_of_lt (owned.counted bo member)
  cases object with
  | none =>
    simp only at outcome
    have kept : ({ state with tracker := tracker } : GemState).Owned :=
      { owned with
        counted := older
        tracked := fun entry member => owned.tracked entry (outcome ▸ member) }
    rw [adopt, destroyed]
    split
    · exact kept
    · rename_i closable
      apply closeBuffer_owned kept isOpen
      intro bo member same
      exact closable (shared bo member same).2
  | some object =>
    obtain ⟨named, rfl, entries⟩ := outcome
    constructor
    · intro bo member
      rcases List.mem_cons.mp member with rfl | former
      · exact isOpen
      · exact owned.carried bo former
    · intro bo member other listed same
      rcases List.mem_cons.mp member with rfl | former
      · rcases List.mem_cons.mp listed with rfl | known
        · exact .inl rfl
        · exact .inr (shared other known same.symm).symm
      · rcases List.mem_cons.mp listed with rfl | known
        · exact .inr (shared bo former same)
        · exact owned.exclusive bo former other known same
    · apply List.nodup_cons.mpr
      refine ⟨fun taken => ?_, owned.distinct⟩
      obtain ⟨bo, member, same⟩ := List.mem_map.mp taken
      have less := owned.counted bo member
      simp only [same, named, Nat.lt_irrefl] at less
    · intro bo member
      rcases List.mem_cons.mp member with rfl | former
      · simp [adopt, named, created]
      · exact older bo former
    · intro entry member
      rcases entries entry member with former | new
      · obtain ⟨key, listed⟩ := owned.tracked entry former
        exact ⟨key, List.mem_cons_of_mem _ listed⟩
      · rw [new]
        exact ⟨rfl, List.mem_cons_self⟩
    · exact owned.held
    · exact owned.balanced
    · exact owned.orphaned

theorem adoptUntracked_owned (owned : state.Owned) (location : Location) {handle : Nat} (basePtr size vpuAddr : Nat)
    (isOpen : handle ∈ state.handles.map Prod.fst) (free : ∀ bo ∈ state.objects, bo.object.handle ≠ handle) :
    (state.adoptUntracked location handle basePtr size vpuAddr).Owned := by
  have object := @adopt_owned state owned location handle
    (some ⟨state.tracker.created, handle, basePtr, size, vpuAddr⟩,
      { state.tracker with created := state.tracker.created + 1 })
    ⟨rfl, rfl, rfl, fun entry member => .inl member⟩ isOpen (fun bo member same => absurd same (free bo member))
  exact { object with }

/-- The destructor of an object without holders closes a handle that no other object carries. -/
theorem collect_owned (owned : state.Owned) (id : Nat) : (state.collect id).Owned := by
  rw [collect]
  split
  · exact owned
  · rename_i unheld
    cases found : state.objects.find? (fun bo => bo.object.id = id) with
    | none => exact owned
    | some bo =>
      have member := List.mem_of_find?_eq_some found
      have own : bo.object.id = id := by simpa using List.find?_some found
      have kept : ({ state with objects := state.objects.filter fun other => other.object.id ≠ id } : GemState).Owned := by
        constructor
        · intro other listed
          exact owned.carried other (List.mem_of_mem_filter listed)
        · intro first listed second known
          exact owned.exclusive first (List.mem_of_mem_filter listed) second (List.mem_of_mem_filter known)
        · exact owned.distinct.sublist (List.filter_sublist.map _)
        · intro other listed
          exact owned.counted other (List.mem_of_mem_filter listed)
        · intro entry listed
          obtain ⟨key, live⟩ := owned.tracked entry listed
          refine ⟨key, List.mem_filter.mpr ⟨live, ?_⟩⟩
          have other : entry.2.object.id ≠ id := by
            intro same
            exact unheld (.inr (List.mem_map.mpr ⟨entry, listed, same⟩))
          simpa using other
        · exact owned.held
        · exact owned.balanced
        · exact owned.orphaned
      simp only
      rw [destroyed]
      split
      · exact kept
      · rename_i closable
        apply closeBuffer_owned kept (owned.carried bo member)
        intro other listed same
        obtain ⟨known, different⟩ := List.mem_filter.mp listed
        rcases owned.exclusive other known bo member same with equal | ⟨-, outside⟩
        · simp [equal, own] at different
        · exact closable outside

/-- A condition on a call: a buffer that is freed shares its handle with no other live object, and an import that
makes an object gets no handle of a buffer that was freed and is still in use. -/
def SoleOwner (state : GemState) : GemCall → Prop
  | .freeMemAlloc ptr => ∀ bo ∈ state.freed ptr, ∀ other ∈ state.objects,
      other.object.handle = bo.object.handle → other.object.id = bo.object.id
  | .importMemory _ fd reply => reply.granted = true ∧ reply.informed = true ∧ reply.basePtr ≠ 0 →
      ∀ memory ∈ state.descriptors[fd]?, ∀ entry ∈ state.handles.find? (fun entry => entry.2 = memory),
        ∀ other ∈ state.objects, other.object.handle = entry.1 → other.location.isExternal = true
  | _ => True

instance (state : GemState) (call : GemCall) : Decidable (state.SoleOwner call) := by
  cases call <;> unfold SoleOwner <;> infer_instance

theorem createBufferObject_owned (owned : state.Owned) (size : Nat) (mappable : Bool) (location : Location)
    (reply : BufferReply) : (state.createBufferObject size mappable location reply).Owned := by
  obtain ⟨kept, made⟩ := create_owned owned mappable reply
  rw [createBufferObject]
  rcases created : state.create mappable reply with ⟨none | answer, next⟩ <;> rw [created] at kept made
  · exact kept
  · obtain ⟨isOpen, free, mapped⟩ := made answer rfl
    apply adopt_owned kept (next.tracker.createBufferObject_adoption size location mapped) isOpen
    exact fun bo member same => absurd same (free bo member)

theorem createUntrackedBufferObject_owned (owned : state.Owned) (size : Nat) (mappable : Bool)
    (reply : BufferReply) : (state.createUntrackedBufferObject size mappable reply).Owned := by
  obtain ⟨kept, made⟩ := create_owned owned mappable reply
  rw [createUntrackedBufferObject]
  split
  · exact owned
  · rcases created : state.create mappable reply with ⟨none | answer, next⟩ <;> rw [created] at kept made
    · exact kept
    · obtain ⟨isOpen, free, -⟩ := made answer rfl
      exact adoptUntracked_owned kept .Internal _ size _ isOpen free

theorem importUserPtr_owned (owned : state.Owned) (userPtr size : Nat) (reply : BufferReply) :
    (state.importUserPtr userPtr size reply).Owned := by
  obtain ⟨kept, isOpen, free⟩ := openHandle_owned owned (.own state.opened)
  rw [importUserPtr]
  split
  · exact owned
  · rename_i asked
    simp only [Bool.or_eq_true, Bool.not_eq_true', beq_iff_eq, not_or] at asked
    apply adopt_owned kept _ isOpen
    · exact fun bo member same => absurd same (free bo member)
    · exact state.tracker.importUserPtr_adoption userPtr size _ reply.vpuAddr asked.2

theorem createUntrackedBufferObjectFromUserPtr_owned (owned : state.Owned) (userPtr size : Nat)
    (reply : BufferReply) : (state.createUntrackedBufferObjectFromUserPtr userPtr size reply).Owned := by
  obtain ⟨kept, isOpen, free⟩ := openHandle_owned owned (.own state.opened)
  rw [createUntrackedBufferObjectFromUserPtr]
  split
  · exact owned
  · split
    · exact owned
    · exact adoptUntracked_owned kept .UserPtr _ _ _ isOpen free

/-- What an import of memory gets: the handle of that memory, which others may carry already. -/
theorem importFromFd_owned (owned : state.Owned) (fd : Nat) (reply : BufferReply) :
    (state.importFromFd fd reply).2.Owned ∧
      ∀ answer, (state.importFromFd fd reply).1 = some answer →
        (reply.granted = true ∧ reply.informed = true ∧ reply.basePtr ≠ 0) ∧
          answer.basePtr = reply.basePtr ∧
          answer.handle ∈ (state.importFromFd fd reply).2.handles.map Prod.fst ∧
          ∀ bo ∈ (state.importFromFd fd reply).2.objects, bo.object.handle = answer.handle →
            bo ∈ state.objects ∧ ∃ memory, state.descriptors[fd]? = some memory ∧
              ∃ entry, state.handles.find? (fun entry => entry.2 = memory) = some entry ∧ entry.1 = answer.handle := by
  rw [importFromFd]
  cases known : state.descriptors[fd]? with
  | none => exact ⟨owned, fun _ failed => by cases failed⟩
  | some memory =>
    obtain ⟨kept, isOpen, same⟩ := importBuffer_owned owned memory
    simp only
    split
    · exact ⟨owned, fun _ failed => by cases failed⟩
    · rename_i granted
      split
      · exact ⟨kept, fun _ failed => by cases failed⟩
      · rename_i mapped
        refine ⟨kept, fun answer imported => ?_⟩
        cases imported
        simp only [Bool.or_eq_true, Bool.not_eq_true', beq_iff_eq, not_or, Bool.not_eq_false] at granted mapped
        refine ⟨⟨granted, mapped⟩, rfl, isOpen, fun bo member carries => ?_⟩
        rw [same] at member
        refine ⟨member, memory, rfl, ?_⟩
        cases former : state.handles.find? (fun entry => entry.2 = memory) with
        | some entry => exact ⟨entry, rfl, by rw [importBuffer, former]⟩
        | none =>
          rw [importBuffer, former] at carries
          exact absurd carries ((openHandle_owned owned memory).2.2 bo member)

theorem importMemory_owned (owned : state.Owned) (kind : MemoryKind) (fd : Nat) (reply : BufferReply)
    (sole : state.SoleOwner (.importMemory kind fd reply)) : (state.importMemory kind fd reply).Owned := by
  obtain ⟨kept, made⟩ := importFromFd_owned owned fd reply
  rw [importMemory]
  rcases imported : state.importFromFd fd reply with ⟨none | answer, next⟩ <;> rw [imported] at kept made
  · exact kept
  · obtain ⟨complete, mapped, isOpen, known⟩ := made answer rfl
    apply adopt_owned kept _ isOpen
    · intro bo member carries
      obtain ⟨former, memory, behind, entry, first, own⟩ := known bo member carries
      refine ⟨?_, kind.external_isExternal⟩
      exact sole complete memory behind entry first bo former (carries.trans own.symm)
    · exact next.tracker.importBufferObject_adoption kind.external reply.size (mapped ▸ complete.2.2)

theorem freed_some {bo : TrackedBuffer} (freed : state.freed ptr = some bo) :
    state.tracker.findBufferObject ptr = some bo ∧
      (state.tracker.freeMemAlloc ptr).2 =
        { state.tracker with
          trackedBuffers := eraseKey (toDual bo.object.basePtr) state.tracker.trackedBuffers } := by
  rw [GemState.freed] at freed
  split at freed
  · rename_i success
    refine ⟨freed, ?_⟩
    rw [BufferTracker.freeMemAlloc, freed] at success ⊢
    simp only at success ⊢
    split at success
    · cases success
    · rename_i based
      rw [if_neg based]
  · cases freed

/-- A found buffer is one of the tracked ones. -/
theorem findBufferObject_mem {tracker : BufferTracker} {bo : TrackedBuffer}
    (found : tracker.findBufferObject ptr = some bo) : ∃ entry ∈ tracker.trackedBuffers, entry.2 = bo := by
  rw [BufferTracker.findBufferObject] at found
  split at found
  · cases found
  · split at found
    · cases found
    · rename_i key other first
      split at found
      · cases found
        exact ⟨(key, bo), List.mem_of_find?_eq_some first, rfl⟩
      · cases found

theorem Owned.same {bo other : TrackedBuffer} (owned : state.Owned) (member : bo ∈ state.objects)
    (listed : other ∈ state.objects) (same : bo.object.id = other.object.id) : bo = other :=
  List.inj_on_of_nodup_map owned.distinct member listed same

theorem freeMemAlloc_owned (owned : state.Owned) (ptr : Nat) (sole : state.SoleOwner (.freeMemAlloc ptr)) :
    (state.freeMemAlloc ptr).Owned := by
  rw [freeMemAlloc]
  cases freed : state.freed ptr with
  | none => exact owned
  | some bo =>
    obtain ⟨found, erased⟩ := freed_some freed
    obtain ⟨own, entered, same⟩ := findBufferObject_mem found
    have live : bo ∈ state.objects := same ▸ (owned.tracked own entered).2
    apply collect_owned
    rw [erased]
    -- The closable location changes neither the handle nor the id of an object.
    have image : ∀ other : TrackedBuffer, (if other.object.id = bo.object.id then
        other.allowDeleteExternalHandle else other).object = other.object := by
      intro other
      split <;> rfl
    constructor
    · intro other member
      obtain ⟨former, listed, rfl⟩ := List.mem_map.mp member
      rw [image]
      exact owned.carried former listed
    · intro first member second listed carries
      obtain ⟨left, leftLive, rfl⟩ := List.mem_map.mp member
      obtain ⟨right, rightLive, rfl⟩ := List.mem_map.mp listed
      rw [image, image] at carries ⊢
      by_cases leftFreed : left.object.id = bo.object.id
      · left
        have equal := owned.same leftLive live leftFreed
        rw [leftFreed, sole bo freed right rightLive (equal ▸ carries.symm)]
      · by_cases rightFreed : right.object.id = bo.object.id
        · have equal := owned.same rightLive live rightFreed
          exact absurd (sole bo freed left leftLive (equal ▸ carries)) leftFreed
        · rw [if_neg leftFreed, if_neg rightFreed]
          exact owned.exclusive left leftLive right rightLive carries
    · rw [List.map_map]
      have ids : ((fun bo : TrackedBuffer => bo.object.id) ∘ fun other : TrackedBuffer =>
          if other.object.id = bo.object.id then other.allowDeleteExternalHandle else other) =
          fun bo : TrackedBuffer => bo.object.id := by
        funext other
        simp only [Function.comp_apply, image]
      rw [ids]
      exact owned.distinct
    · intro other member
      obtain ⟨former, listed, rfl⟩ := List.mem_map.mp member
      rw [image]
      exact owned.counted former listed
    · intro entry member
      obtain ⟨former, apart⟩ := mem_eraseKey.mp member
      obtain ⟨key, listed⟩ := owned.tracked entry former
      refine ⟨key, List.mem_map.mpr ⟨entry.2, listed, ?_⟩⟩
      apply if_neg
      intro equal
      rw [owned.same listed live equal] at key
      exact apart key
    · exact owned.held
    · exact owned.balanced
    · exact owned.orphaned

theorem exportMemory_owned (owned : state.Owned) (ptr : Nat) (granted : Bool) :
    (state.exportMemory ptr granted).Owned := by
  rw [exportMemory]
  split
  · exact owned
  · split
    · exact owned
    · exact { owned with }

theorem references_owned (owned : state.Owned) (references : List Nat) :
    ({ state with references := references } : GemState).Owned := { owned with }

theorem step_owned (state : GemState) (call : GemCall) (owned : state.Owned) (sole : state.SoleOwner call) :
    (state.step call).Owned := by
  cases call with
  | createBufferObject size mappable location reply => exact createBufferObject_owned owned size mappable location reply
  | createUntrackedBufferObject size mappable reply => exact createUntrackedBufferObject_owned owned size mappable reply
  | importUserPtr userPtr size reply => exact importUserPtr_owned owned userPtr size reply
  | createUntrackedBufferObjectFromUserPtr userPtr size reply =>
    exact createUntrackedBufferObjectFromUserPtr_owned owned userPtr size reply
  | importMemory kind fd reply => exact importMemory_owned owned kind fd reply sole
  | exportMemory ptr granted => exact exportMemory_owned owned ptr granted
  | receive source => exact { owned with }
  | freeMemAlloc ptr => exact freeMemAlloc_owned owned ptr sole
  | lookUp ptr =>
    rw [step, lookUp]
    split
    · exact owned
    · exact references_owned owned _
  | share id =>
    rw [step, share]
    split
    · exact references_owned owned _
    · exact owned
  | release id =>
    rw [step, release]
    split
    · exact collect_owned (references_owned owned _) id
    · exact owned

end GemState

/-- As long as no freed buffer shares its handle, no object closes a handle that another live one carries, and
a handle that is closed twice was obtained in between. -/
theorem handles_closed_once (numbers : HandleNumbers) (pageSize : Nat) (userPtrCapability : Bool)
    (calls : List GemCall)
    (sole : Guarded GemState.step GemState.SoleOwner (.initial numbers pageSize userPtrCapability) calls) :
    let state := runFrom GemState.step (.initial numbers pageSize userPtrCapability) calls
    state.orphaned = [] ∧
      ∀ handle later between earlier,
        state.log = later ++ .released handle :: (between ++ .released handle :: earlier) →
          .obtained handle ∈ between := by
  intro state
  have owned : state.Owned := guarded_invariant GemState.step_owned
    (GemState.initial_owned numbers pageSize userPtrCapability) sole
  refine ⟨owned.orphaned, fun handle later between earlier history => ?_⟩
  have balanced := owned.balanced
  rw [history] at balanced
  exact balanced.obtained_between

/-- A kernel that numbers its handles upwards. -/
def risingNumbers : HandleNumbers where
  next _ taken := taken.foldr max 0 + 1
  unused := by
    intro _ taken member
    have bound : ∀ handle ∈ taken, handle ≤ taken.foldr max 0 := by
      intro handle listed
      exact List.le_max_of_le' 0 listed (Nat.le_refl handle)
    exact absurd (bound _ member) (by omega)

/-- A buffer is exported, used by a command, freed and imported again once the command is gone. -/
def reimportedBuffer : List GemCall :=
  [.createBufferObject 4096 true .ExternalHost ⟨true, true, 0x10000, 0, 0⟩, .exportMemory 0x10000 true,
    .lookUp 0x10000, .freeMemAlloc 0x10000, .release 0,
    .importMemory .Host 0 ⟨true, true, 0x20000, 0, 4096⟩, .freeMemAlloc 0x20000]

theorem handles_closed_once_reimported :
    (runFrom GemState.step (.initial risingNumbers 4096 true) reimportedBuffer).log =
        [.released 1, .obtained 1, .released 1, .obtained 1] ∧
      (runFrom GemState.step (.initial risingNumbers 4096 true) reimportedBuffer).orphaned = [] :=
  ⟨by decide, (handles_closed_once risingNumbers 4096 true reimportedBuffer (by decide)).1⟩

/-- A descriptor that is imported twice, and both buffers freed. -/
def importedTwice : List GemCall :=
  [.receive 0, .importMemory .Host 0 ⟨true, true, 0x10000, 0, 4096⟩,
    .importMemory .Host 0 ⟨true, true, 0x20000, 0, 4096⟩, .freeMemAlloc 0x10000, .freeMemAlloc 0x20000]

/-- The first free closes the handle that the second buffer carries, the second one closes it again. -/
theorem shared_handle_closed_twice :
    (runFrom GemState.step (.initial risingNumbers 4096 true) importedTwice).orphaned = [1] ∧
      (runFrom GemState.step (.initial risingNumbers 4096 true) importedTwice).log =
        [.released 1, .released 1, .obtained 1, .obtained 1] := by
  decide

end NpuDriver
