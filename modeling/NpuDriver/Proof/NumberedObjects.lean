import NpuDriver.Memory.GemHandles
import NpuDriver.Proof.HandleOwnership

/-! What the live buffer objects and the map of tracked buffers have to do with each other. -/

namespace NpuDriver

open Library
open OrderDual (toDual)

/-- The outcome of `track` for an object of a location. -/
def Emplaced (tracker : BufferTracker) (location : Location) (tracked : Option VPUBufferObject × BufferTracker) : Prop :=
  tracked.2.created = tracker.created + 1 ∧
    match tracked.1 with
    | none => tracked.2.trackedBuffers = tracker.trackedBuffers
    | some object =>
      object.id = tracker.created ∧ toDual object.basePtr ∉ tracker.trackedBuffers.map Prod.fst ∧
        tracked.2.trackedBuffers.Perm ((toDual object.basePtr, ⟨object, location⟩) :: tracker.trackedBuffers)

namespace BufferTracker

theorem track_emplaced (tracker : BufferTracker) {object : VPUBufferObject} (location : Location)
    (counted : object.id = tracker.created) : Emplaced tracker location (tracker.track object location) := by
  rw [track]
  split
  · exact ⟨rfl, rfl⟩
  · rename_i absent
    exact ⟨rfl, counted, absent, emplace_perm absent _⟩

theorem track_object (tracker : BufferTracker) {object other : VPUBufferObject} {location : Location}
    (tracked : (tracker.track object location).1 = some other) : other = object := by
  rw [track] at tracked
  split at tracked
  · cases tracked
  · exact (Option.some.inj tracked).symm

/-- The object of a creation has the size that was asked for. -/
theorem createBufferObject_emplaced (tracker : BufferTracker) (size : Nat) {mappable : Bool} (location : Location)
    {answer : BufferAnswer} (mapped : (mappable && answer.basePtr == 0) = false) :
    Emplaced tracker location (tracker.createBufferObject size mappable location (some answer)) ∧
      ∀ object, (tracker.createBufferObject size mappable location (some answer)).1 = some object →
        object.allocSize = size := by
  rw [createBufferObject]
  simp only [mapped, Bool.false_eq_true, ↓reduceIte]
  refine ⟨tracker.track_emplaced location rfl, fun object made => ?_⟩
  rw [tracker.track_object made]

theorem importBufferObject_emplaced (tracker : BufferTracker) (location : Location) {answer : BufferAnswer} (size : Nat)
    (mapped : answer.basePtr ≠ 0) :
    Emplaced tracker location (tracker.importBufferObject location (some (answer, size))) := by
  rw [importBufferObject]
  simp only [mapped, ↓reduceIte]
  exact tracker.track_emplaced location rfl

theorem importUserPtr_emplaced (tracker : BufferTracker) (userPtr size handle vpuAddr : Nat)
    (constructed : (tracker.importUserPtr userPtr size (some (handle, vpuAddr))).2.created ≠ tracker.created) :
    Emplaced tracker .UserPtr (tracker.importUserPtr userPtr size (some (handle, vpuAddr))) := by
  revert constructed
  rw [importUserPtr]
  intro constructed
  split at constructed
  · exact absurd rfl constructed
  · rename_i checked
    rw [if_neg checked]
    split at constructed
    · exact absurd rfl constructed
    · rename_i unknown
      rw [if_neg unknown]
      simp only at constructed ⊢
      split at constructed
      · exact absurd rfl constructed
      · rename_i inside
        rw [if_neg inside]
        exact tracker.track_emplaced .UserPtr rfl

end BufferTracker

theorem Location.allowDeleteExternalHandle_inner (location : Location) :
    location.allowDeleteExternalHandle.isExternal = false := by
  cases location <;> decide

namespace GemState

variable {state : GemState} {bo : TrackedBuffer} {id : Nat}

/-- What the handles do not touch. -/
structure SameObjects (before after : GemState) : Prop where
  objects : after.objects = before.objects
  tracker : after.tracker = before.tracker

theorem destroyed_same (state : GemState) (location : Location) (handle : Nat) :
    SameObjects state (state.destroyed location handle) := by
  unfold destroyed
  split
  · exact ⟨rfl, rfl⟩
  · exact ⟨rfl, rfl⟩

theorem create_same (state : GemState) (mappable : Bool) (reply : BufferReply) :
    SameObjects state (state.create mappable reply).2 ∧
      ∀ answer, (state.create mappable reply).1 = some answer → (mappable && answer.basePtr == 0) = false := by
  unfold create
  split
  · exact ⟨⟨rfl, rfl⟩, by simp⟩
  · dsimp only
    split
    · exact ⟨⟨rfl, rfl⟩, by simp⟩
    · rename_i complete
      rw [Bool.or_eq_true, not_or] at complete
      refine ⟨⟨rfl, rfl⟩, fun answer made => ?_⟩
      rw [← Option.some.inj made]
      simpa using complete.2

theorem importFromFd_same (state : GemState) (fd : Nat) (reply : BufferReply) :
    SameObjects state (state.importFromFd fd reply).2 ∧
      ∀ answer, (state.importFromFd fd reply).1 = some answer → answer.basePtr ≠ 0 := by
  unfold importFromFd
  split
  · exact ⟨⟨rfl, rfl⟩, by simp⟩
  · rename_i memory _
    split
    · exact ⟨⟨rfl, rfl⟩, by simp⟩
    · have imported : SameObjects state (state.importBuffer memory).2 := by
        unfold importBuffer
        split
        · exact ⟨rfl, rfl⟩
        · exact ⟨rfl, rfl⟩
      dsimp only
      split
      · exact ⟨imported, by simp⟩
      · rename_i complete
        rw [Bool.or_eq_true, not_or] at complete
        refine ⟨imported, fun answer made => ?_⟩
        rw [← Option.some.inj made]
        simpa using complete.2

/-- Ids tell the live objects apart, the map holds live objects only, and an external one until it is freed. -/
structure Numbered (state : GemState) : Prop where
  distinct : (state.objects.map fun bo => bo.object.id).Nodup
  counted : ∀ bo ∈ state.objects, bo.object.id < state.tracker.created
  tracked : ∀ entry ∈ state.tracker.trackedBuffers,
    entry.1 = toDual entry.2.object.basePtr ∧ entry.2 ∈ state.objects
  keys : (state.tracker.trackedBuffers.map Prod.fst).Nodup
  external : ∀ bo ∈ state.objects, bo.location.isExternal = true →
    ∃ entry ∈ state.tracker.trackedBuffers, entry.2 = bo

theorem Numbered.same (numbered : Numbered state) {after : GemState} (same : SameObjects state after) :
    Numbered after := by
  refine ⟨?_, ?_, ?_, ?_, ?_⟩
  · rw [same.objects]
    exact numbered.distinct
  · rw [same.objects, same.tracker]
    exact numbered.counted
  · rw [same.objects, same.tracker]
    exact numbered.tracked
  · rw [same.tracker]
    exact numbered.keys
  · rw [same.objects, same.tracker]
    exact numbered.external

theorem initial_numbered (numbers : HandleNumbers) (pageSize : Nat) (userPtrCapability : Bool) :
    Numbered (initial numbers pageSize userPtrCapability) :=
  ⟨List.nodup_nil, by simp [initial], by simp [initial, BufferTracker.empty], List.nodup_nil, by simp [initial]⟩

/-- A new object has a new id. -/
theorem Numbered.fresh (numbered : Numbered state) {object : VPUBufferObject} (named : object.id = state.tracker.created) :
    object.id ∉ state.objects.map fun bo => bo.object.id := by
  intro taken
  obtain ⟨bo, member, same⟩ := List.mem_map.mp taken
  have less := numbered.counted bo member
  omega

theorem Numbered.adopt (numbered : Numbered state) {location : Location} (handle : Nat)
    {tracked : Option VPUBufferObject × BufferTracker} (emplaced : Emplaced state.tracker location tracked) :
    Numbered (state.adopt location handle tracked) := by
  obtain ⟨object, tracker⟩ := tracked
  obtain ⟨created, outcome⟩ := emplaced
  dsimp only at created outcome
  have older : ∀ bo ∈ state.objects, bo.object.id < tracker.created := by
    intro bo member
    rw [created]
    exact Nat.lt_succ_of_lt (numbered.counted bo member)
  cases object with
  | none =>
    dsimp only at outcome
    have kept : Numbered { state with tracker := tracker } := by
      refine ⟨numbered.distinct, older, ?_, ?_, ?_⟩
      · rw [outcome]
        exact numbered.tracked
      · rw [outcome]
        exact numbered.keys
      · rw [outcome]
        exact numbered.external
    exact kept.same (destroyed_same _ location handle)
  | some object =>
    obtain ⟨named, absent, entries⟩ := outcome
    refine ⟨?_, ?_, ?_, ?_, ?_⟩
    · exact List.nodup_cons.mpr ⟨numbered.fresh named, numbered.distinct⟩
    · intro bo member
      rcases List.mem_cons.mp member with rfl | former
      · simp only [GemState.adopt, named, created]
        omega
      · exact older bo former
    · intro entry member
      rcases List.mem_cons.mp (entries.mem_iff.mp member) with rfl | former
      · exact ⟨rfl, List.mem_cons_self⟩
      · obtain ⟨key, live⟩ := numbered.tracked entry former
        exact ⟨key, List.mem_cons_of_mem _ live⟩
    · apply (entries.map Prod.fst).nodup_iff.mpr
      exact List.nodup_cons.mpr ⟨absent, numbered.keys⟩
    · intro bo member outside
      rcases List.mem_cons.mp member with rfl | former
      · exact ⟨_, entries.mem_iff.mpr List.mem_cons_self, rfl⟩
      · obtain ⟨entry, inside, same⟩ := numbered.external bo former outside
        exact ⟨entry, entries.mem_iff.mpr (List.mem_cons_of_mem _ inside), same⟩

theorem Numbered.adoptUntracked (numbered : Numbered state) {location : Location} (inner : location.isExternal = false)
    (handle basePtr size vpuAddr : Nat) : Numbered (state.adoptUntracked location handle basePtr size vpuAddr) := by
  refine ⟨List.nodup_cons.mpr ⟨numbered.fresh rfl, numbered.distinct⟩, ?_, ?_, numbered.keys, ?_⟩
  · intro bo member
    rcases List.mem_cons.mp member with rfl | former
    · exact Nat.lt_succ_self _
    · exact Nat.lt_succ_of_lt (numbered.counted bo former)
  · intro entry member
    obtain ⟨key, live⟩ := numbered.tracked entry member
    exact ⟨key, List.mem_cons_of_mem _ live⟩
  · intro bo member outside
    rcases List.mem_cons.mp member with rfl | former
    · rw [inner] at outside
      cases outside
    · exact numbered.external bo former outside

/-- Either nothing is destroyed, or the one object with the id, which the map does not hold. -/
theorem collect_cases (state : GemState) (id : Nat) :
    SameObjects state (state.collect id) ∨
      (∃ bo ∈ state.objects, bo.object.id = id) ∧ id ∉ state.trackedIds ∧
        (state.collect id).tracker = state.tracker ∧
          (state.collect id).objects = state.objects.filter fun other => other.object.id ≠ id := by
  unfold collect
  split
  · exact .inl ⟨rfl, rfl⟩
  · rename_i unheld
    cases found : state.objects.find? (fun bo => bo.object.id = id) with
    | none => exact .inl ⟨rfl, rfl⟩
    | some bo =>
      have same := destroyed_same { state with objects := state.objects.filter fun other => other.object.id ≠ id }
        bo.location bo.object.handle
      exact .inr ⟨⟨bo, List.mem_of_find?_eq_some found, by simpa using List.find?_some found⟩,
        fun inside => unheld (.inr inside), same.tracker, same.objects⟩

theorem Numbered.collect (numbered : Numbered state) (id : Nat) : Numbered (state.collect id) := by
  rcases state.collect_cases id with same | ⟨-, untracked, tracker, objects⟩
  · exact numbered.same same
  · have live : ∀ entry ∈ state.tracker.trackedBuffers, entry.2.object.id ≠ id :=
      fun entry member same => untracked (List.mem_map.mpr ⟨entry, member, same⟩)
    refine ⟨?_, ?_, ?_, ?_, ?_⟩
    · rw [objects]
      exact numbered.distinct.sublist (List.filter_sublist.map _)
    · rw [objects, tracker]
      exact fun bo member => numbered.counted bo (List.mem_of_mem_filter member)
    · rw [objects, tracker]
      intro entry member
      obtain ⟨key, inside⟩ := numbered.tracked entry member
      exact ⟨key, List.mem_filter.mpr ⟨inside, by simpa using live entry member⟩⟩
    · rw [tracker]
      exact numbered.keys
    · rw [objects, tracker]
      exact fun bo member => numbered.external bo (List.mem_of_mem_filter member)

/-- A buffer that is freed is alive, and leaves the map with its closable location. -/
theorem Numbered.freeMemAlloc (numbered : Numbered state) {ptr : Nat} (freed : state.freed ptr = some bo) :
    bo ∈ state.objects ∧
      Numbered { state with
        tracker := (state.tracker.freeMemAlloc ptr).2
        objects := state.objects.map fun (other : TrackedBuffer) =>
          if other.object.id = bo.object.id then other.allowDeleteExternalHandle else other } := by
  obtain ⟨found, erased⟩ := freed_some freed
  obtain ⟨own, entered, same⟩ := findBufferObject_mem found
  have live : bo ∈ state.objects := same ▸ (numbered.tracked own entered).2
  have alone : ∀ other ∈ state.objects, other.object.id = bo.object.id → other = bo := fun other member same =>
    List.inj_on_of_nodup_map numbered.distinct member live same
  have image : ∀ other : TrackedBuffer, (if other.object.id = bo.object.id then
      other.allowDeleteExternalHandle else other).object = other.object := by
    intro other
    split
    · rfl
    · rfl
  refine ⟨live, ?_, ?_, ?_, ?_, ?_⟩
  · rw [List.map_map]
    have ids : ((fun bo : TrackedBuffer => bo.object.id) ∘ fun other : TrackedBuffer =>
        if other.object.id = bo.object.id then other.allowDeleteExternalHandle else other) =
        fun bo : TrackedBuffer => bo.object.id := by
      funext other
      simp only [Function.comp_apply, image]
    rw [ids]
    exact numbered.distinct
  · rw [erased]
    intro other member
    obtain ⟨former, listed, rfl⟩ := List.mem_map.mp member
    rw [image]
    exact numbered.counted former listed
  · rw [erased]
    intro entry member
    obtain ⟨former, apart⟩ := mem_eraseKey.mp member
    obtain ⟨key, listed⟩ := numbered.tracked entry former
    refine ⟨key, List.mem_map.mpr ⟨entry.2, listed, if_neg fun equal => ?_⟩⟩
    rw [alone entry.2 listed equal] at key
    exact apart key
  · rw [erased]
    exact numbered.keys.sublist (List.filter_sublist.map _)
  · rw [erased]
    intro other member outside
    obtain ⟨former, listed, rfl⟩ := List.mem_map.mp member
    by_cases self : former.object.id = bo.object.id
    · rw [if_pos self, TrackedBuffer.allowDeleteExternalHandle, Location.allowDeleteExternalHandle_inner] at outside
      cases outside
    · rw [if_neg self] at outside ⊢
      obtain ⟨entry, inside, same'⟩ := numbered.external former listed outside
      refine ⟨entry, mem_eraseKey.mpr ⟨inside, fun key => self ?_⟩, same'⟩
      have key' := (numbered.tracked own entered).1
      rw [same] at key'
      have equal : entry = own := List.inj_on_of_nodup_map numbered.keys inside entered (key.trans key'.symm)
      rw [← same', equal, same]

/-- The objects behind a call that adopts: the same ones, or one with the next id in front of them. -/
theorem adopt_objects (state : GemState) (location : Location) (handle : Nat)
    (tracked : Option VPUBufferObject × BufferTracker) :
    (state.adopt location handle tracked).objects =
        (tracked.1.map fun object => (⟨object, location⟩ : TrackedBuffer)).toList ++ state.objects ∧
      (state.adopt location handle tracked).tracker = tracked.2 := by
  obtain ⟨object, tracker⟩ := tracked
  cases object with
  | none =>
    have same := destroyed_same { state with tracker := tracker } location handle
    exact ⟨same.objects, same.tracker⟩
  | some object => exact ⟨rfl, rfl⟩

end GemState

end NpuDriver
