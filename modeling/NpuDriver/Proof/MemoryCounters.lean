import NpuDriver.Library.Drift
import NpuDriver.Memory.Statistics
import NpuDriver.Proof.NumberedObjects

/-! The memory statistics against the buffers that are alive. -/

namespace NpuDriver

open Library

namespace GemState

variable {state : GemState} {bo : TrackedBuffer}

/-- An object that is still there is not destroyed by the call. -/
theorem destructed_kept {after : GemState}
    (ids : (after.objects.map fun bo => bo.object.id) = state.objects.map fun bo => bo.object.id) (id : Nat) :
    state.destructed after id = none := by
  unfold destructed
  split
  · rfl
  · rename_i absent
    rw [List.find?_eq_none]
    intro bo member named
    have listed : bo.object.id ∈ after.objects.map fun bo => bo.object.id := ids ▸ List.mem_map_of_mem member
    obtain ⟨other, present, same⟩ := List.mem_map.mp listed
    exact absent (List.any_eq_true.mpr ⟨other, present, by simpa [same] using named⟩)

theorem destructed_gone (numbered : Numbered state) {after : GemState} (live : bo ∈ state.objects)
    (gone : ∀ other ∈ after.objects, other.object.id ≠ bo.object.id) :
    state.destructed after bo.object.id = some bo := by
  unfold destructed
  rw [if_neg]
  · cases found : state.objects.find? fun other => other.object.id = bo.object.id with
    | none =>
      have absent := List.find?_eq_none.mp found bo live
      simp at absent
    | some other =>
      have member := List.mem_of_find?_eq_some found
      have named : other.object.id = bo.object.id := by simpa using List.find?_some found
      rw [List.inj_on_of_nodup_map numbered.distinct member live named]
  · intro present
    obtain ⟨other, member, named⟩ := List.any_eq_true.mp present
    exact gone other member (of_decide_eq_true named)

end GemState

namespace MeasuredMemory

variable {memory : MeasuredMemory} {counter : AllocCounter} {bo : TrackedBuffer}

/-- What a buffer of a location and a size adds to a counter. -/
def share (pageSize : Nat) (counter : AllocCounter) (location : Location) (size : Nat) : BitVec 64 :=
  if location.counter = some counter then pageAligned pageSize size else 0

/-- What the counters should hold of an object: an imported one is another process's memory. -/
def weight (memory : MeasuredMemory) (counter : AllocCounter) (bo : TrackedBuffer) : BitVec 64 :=
  if bo.object.id ∈ memory.imported then 0 else share memory.pageSize counter bo.location bo.object.allocSize

def live (memory : MeasuredMemory) (counter : AllocCounter) : BitVec 64 :=
  (memory.gem.objects.map (memory.weight counter)).sum

/-- By how much a counter is too high. -/
def gap (memory : MeasuredMemory) (counter : AllocCounter) : BitVec 64 :=
  memory.statistics.allocSize counter - memory.live counter

/-- The destructor of an imported object reports a buffer that was never counted. -/
def refund (memory : MeasuredMemory) (after : GemState) (id : Nat) (counter : AllocCounter) : BitVec 64 :=
  match memory.gem.destructed after id with
  | none => 0
  | some bo =>
    if bo.object.id ∈ memory.imported then -share memory.pageSize counter bo.location bo.object.allocSize else 0

/-- What a call adds to the gap: an exportable buffer that cannot be tracked stays counted. -/
def slip (counter : AllocCounter) (memory : MeasuredMemory) : GemCall → BitVec 64
  | .createBufferObject size mappable location reply =>
    match memory.gem.create mappable reply with
    | (none, _) => 0
    | (some answer, next) =>
      if (next.tracker.createBufferObject size mappable location (some answer)).1.isSome then 0
      else if location.isExternal then share memory.pageSize counter location size
      else 0
  | .freeMemAlloc ptr =>
    match memory.gem.freed ptr with
    | none => 0
    | some bo => memory.refund (memory.gem.freeMemAlloc ptr) bo.object.id counter
  | .release id => memory.refund (memory.gem.release id) id counter
  | _ => 0

structure Sound (memory : MeasuredMemory) : Prop where
  numbered : memory.gem.Numbered
  imports : ∀ id ∈ memory.imported, id < memory.gem.tracker.created
  enabled : memory.statistics.enabled = true

theorem inc_allocSize {statistics : MemoryStatistics} (enabled : statistics.enabled = true) (location : Location)
    (pageSize size : Nat) (counter : AllocCounter) :
    (statistics.inc location (pageAligned pageSize size)).enabled = true ∧
      (statistics.inc location (pageAligned pageSize size)).allocSize counter =
        statistics.allocSize counter + share pageSize counter location size := by
  unfold MemoryStatistics.inc share
  rw [enabled]
  cases location.counter with
  | none => simp [enabled]
  | some own =>
    by_cases same : own = counter
    · subst same
      simp
    · simp [same, Function.update_of_ne (Ne.symm same)]

theorem destroyed_allocSize {statistics : MemoryStatistics} (enabled : statistics.enabled = true) (location : Location)
    (pageSize size : Nat) (counter : AllocCounter) :
    (statistics.destroyed location (pageAligned pageSize size)).enabled = true ∧
      (statistics.destroyed location (pageAligned pageSize size)).allocSize counter =
        statistics.allocSize counter - if location.isExternal then 0 else share pageSize counter location size := by
  unfold MemoryStatistics.destroyed
  split
  · exact ⟨enabled, (sub_zero _).symm⟩
  · unfold MemoryStatistics.dec share
    rw [enabled]
    cases location.counter with
    | none => simp [enabled]
    | some own =>
      by_cases same : own = counter
      · subst same
        simp
      · simp [same, Function.update_of_ne (Ne.symm same)]

/-- A step keeps what is known of the memory, and moves each counter's gap by a slip. -/
structure Advances (memory next : MeasuredMemory) (slip : AllocCounter → BitVec 64) : Prop where
  sound : Sound next
  gap : ∀ counter, next.gap counter = memory.gap counter + slip counter

/-- Calls that make and destroy nothing. -/
theorem advances_same (sound : Sound memory) {after : GemState} (same : GemState.SameObjects memory.gem after) :
    Advances memory { memory with gem := after } fun _ => 0 := by
  refine ⟨⟨sound.numbered.same same, ?_, sound.enabled⟩, fun counter => ?_⟩
  · rw [same.tracker]
    exact sound.imports
  · have lives : live { memory with gem := after } counter = memory.live counter := by
      simp only [live, same.objects]
      rfl
    rw [add_zero, MeasuredMemory.gap, lives]
    rfl

/-- Objects with the next id, all of them imported ones or none. -/
theorem live_added (sound : Sound memory) {after : GemState} {added : List TrackedBuffer} {new : List Nat}
    (statistics : MemoryStatistics) (objects : after.objects = added ++ memory.gem.objects)
    (named : ∀ bo ∈ added, bo.object.id = memory.gem.tracker.created)
    (ids : ∀ id ∈ new, id = memory.gem.tracker.created)
    (counter : AllocCounter) :
    live { memory with gem := after, imported := new ++ memory.imported, statistics := statistics } counter =
      (added.map fun bo =>
        if bo.object.id ∈ new then 0 else share memory.pageSize counter bo.location bo.object.allocSize).sum +
          memory.live counter := by
  unfold live
  dsimp only
  rw [objects, List.map_append, List.sum_append]
  congr 2
  · apply List.map_congr_left
    intro bo member
    have older : bo.object.id ∉ memory.imported := fun inside => by
      have less := sound.imports _ inside
      rw [named bo member] at less
      exact Nat.lt_irrefl _ less
    simp [weight, older]
  · apply List.map_congr_left
    intro bo member
    have apart : bo.object.id ∉ new := fun inside => by
      have less := sound.numbered.counted bo member
      rw [ids _ inside] at less
      exact Nat.lt_irrefl _ less
    simp [weight, apart]

/-- The end of a call that drops a holder of an object. Between what its destructor reports and what it weighed lies
the refund of an imported object. -/
theorem advances_collect (sound : Sound memory) {freed : GemState} (numbered : freed.Numbered)
    (created : freed.tracker.created = memory.gem.tracker.created) {relabel : TrackedBuffer → TrackedBuffer}
    (objects : freed.objects = memory.gem.objects.map relabel)
    (relabels : ∀ bo, (relabel bo).object = bo.object ∧ (relabel bo).location.counter = bo.location.counter)
    {location : Location → Location} (counters : ∀ place : Location, (location place).counter = place.counter)
    (id : Nat)
    (closable : ∀ bo ∈ memory.gem.objects, bo.object.id = id → id ∉ freed.trackedIds →
      (location bo.location).isExternal = false) :
    Advances memory
      { memory with gem := freed.collect id, statistics := memory.countDestructed (freed.collect id) id location }
      (memory.refund (freed.collect id) id) := by
  have ids : (freed.objects.map fun bo => bo.object.id) = memory.gem.objects.map fun bo => bo.object.id := by
    rw [objects, List.map_map]
    exact List.map_congr_left fun bo _ => congrArg VPUBufferObject.id (relabels bo).1
  have weighs : ∀ counter bo, memory.weight counter (relabel bo) = memory.weight counter bo := by
    intro counter bo
    simp only [weight, share, (relabels bo).1, (relabels bo).2]
  have lives : ∀ counter, (freed.objects.map (memory.weight counter)).sum = memory.live counter := by
    intro counter
    rw [objects, List.map_map]
    exact congrArg List.sum (List.map_congr_left fun bo _ => weighs counter bo)
  rcases freed.collect_cases id with same | ⟨⟨other, member, named⟩, untracked, tracker, left⟩
  · have kept : memory.gem.destructed (freed.collect id) id = none :=
      GemState.destructed_kept (by rw [same.objects, ids]) id
    refine ⟨⟨numbered.collect id, ?_, ?_⟩, fun counter => ?_⟩
    · rw [same.tracker, created]
      exact sound.imports
    · simp only [countDestructed, kept]
      exact sound.enabled
    · have after : live { memory with gem := freed.collect id, statistics := memory.statistics } counter =
          memory.live counter := by
        rw [← lives counter, ← same.objects]
        rfl
      simp only [countDestructed, refund, kept, add_zero, MeasuredMemory.gap, after]
  · rw [objects] at member
    obtain ⟨bo, inside, rfl⟩ := List.mem_map.mp member
    rw [(relabels bo).1] at named
    subst named
    have gone : memory.gem.destructed (freed.collect bo.object.id) bo.object.id = some bo := by
      apply GemState.destructed_gone sound.numbered inside
      intro rest listed
      rw [left] at listed
      simpa using (List.mem_filter.mp listed).2
    have report := fun counter => destroyed_allocSize sound.enabled (location bo.location) memory.pageSize
      bo.object.allocSize counter
    rw [closable bo inside rfl untracked] at report
    refine ⟨⟨numbered.collect _, ?_, ?_⟩, fun counter => ?_⟩
    · rw [tracker, created]
      exact sound.imports
    · simp only [countDestructed, gone]
      exact (report .hostAllocSize).1
    · have total := sum_without (fun other : TrackedBuffer => other.object.id) (memory.weight counter) numbered.distinct
        (objects ▸ member : relabel bo ∈ freed.objects)
      rw [lives, weighs, (relabels bo).1, ← left] at total
      have shares : share memory.pageSize counter (location bo.location) bo.object.allocSize =
          share memory.pageSize counter bo.location bo.object.allocSize := by
        simp only [share, counters]
      simp only [countDestructed, refund, gone, MeasuredMemory.gap, (report counter).2, Bool.false_eq_true, ↓reduceIte,
        shares]
      have after : live { memory with
          gem := freed.collect bo.object.id
          statistics := memory.statistics.destroyed (location bo.location)
            (pageAligned memory.pageSize bo.object.allocSize) } counter =
          ((freed.collect bo.object.id).objects.map (memory.weight counter)).sum := rfl
      rw [after, total]
      unfold weight
      split
      · ring
      · ring

/-- A call that makes an object and tracks it, or destroys it at once. -/
theorem advances_adopt (sound : Sound memory) {before : GemState} (same : GemState.SameObjects memory.gem before)
    {location : Location} (handle : Nat) {tracked : Option VPUBufferObject × BufferTracker}
    (emplaced : Emplaced before.tracker location tracked) {new : List Nat}
    (ids : new ⊆ (tracked.1.map VPUBufferObject.id).toList)
    {statistics : MemoryStatistics} (enabled : statistics.enabled = true) {slip : AllocCounter → BitVec 64}
    (counts : ∀ counter, statistics.allocSize counter = memory.statistics.allocSize counter + slip counter +
      (tracked.1.elim 0 fun object =>
        if object.id ∈ new then 0 else share memory.pageSize counter location object.allocSize)) :
    Advances memory
      { memory with
        gem := before.adopt location handle tracked, imported := new ++ memory.imported, statistics := statistics }
      slip := by
  obtain ⟨objects, tracker⟩ := before.adopt_objects location handle tracked
  rw [same.objects] at objects
  obtain ⟨created, outcome⟩ := emplaced
  rw [same.tracker] at created
  have named : ∀ object, tracked.1 = some object → object.id = memory.gem.tracker.created := by
    intro object made
    rw [made] at outcome
    rw [← same.tracker]
    exact outcome.1
  have first : ∀ id ∈ new, id = memory.gem.tracker.created := by
    intro id inside
    obtain ⟨object, made, rfl⟩ := Option.map_eq_some_iff.mp (Option.mem_toList.mp (ids inside))
    exact named object made
  refine ⟨⟨(sound.numbered.same same).adopt handle ⟨by rw [created, same.tracker], outcome⟩, ?_, enabled⟩, fun counter => ?_⟩
  · intro id inside
    dsimp only
    rw [tracker, created]
    rcases List.mem_append.mp inside with newer | older
    · rw [first id newer]
      exact Nat.lt_succ_self _
    · exact Nat.lt_succ_of_lt (sound.imports id older)
  · unfold MeasuredMemory.gap
    rw [live_added sound statistics objects _ first counter, counts counter]
    · cases made : tracked.1 with
      | none =>
        simp only [Option.elim_none, Option.map_none, Option.toList_none, List.map_nil, List.sum_nil]
        ring
      | some object =>
        simp only [Option.elim_some, Option.map_some, Option.toList_some, List.map_cons, List.map_nil, List.sum_cons,
          List.sum_nil]
        ring
    · intro bo member
      obtain ⟨object, made, rfl⟩ := Option.map_eq_some_iff.mp (Option.mem_toList.mp member)
      exact named object made

theorem advances_untracked (sound : Sound memory) {before : GemState} (same : GemState.SameObjects memory.gem before)
    {location : Location} (inner : location.isExternal = false) (handle basePtr size vpuAddr : Nat)
    {statistics : MemoryStatistics} (enabled : statistics.enabled = true)
    (counts : ∀ counter, statistics.allocSize counter =
      memory.statistics.allocSize counter + share memory.pageSize counter location size) :
    Advances memory
      { memory with gem := before.adoptUntracked location handle basePtr size vpuAddr, statistics := statistics }
      fun _ => 0 := by
  have older : ∀ id ∈ memory.imported, id < memory.gem.tracker.created + 1 := fun id inside =>
    Nat.lt_succ_of_lt (sound.imports id inside)
  refine ⟨⟨(sound.numbered.same same).adoptUntracked inner handle basePtr size vpuAddr, ?_, enabled⟩, fun counter => ?_⟩
  · simp only [GemState.adoptUntracked, same.tracker]
    exact older
  · have objects : (before.adoptUntracked location handle basePtr size vpuAddr).objects =
        [⟨⟨before.tracker.created, handle, basePtr, size, vpuAddr⟩, location⟩] ++ memory.gem.objects := by
      rw [← same.objects]
      rfl
    have nobody : ∀ id ∈ ([] : List Nat), id = memory.gem.tracker.created := by simp
    have lives := live_added sound statistics objects (by simp [same.tracker]) nobody counter
    simp only [List.nil_append] at lives
    unfold MeasuredMemory.gap
    rw [lives, counts counter]
    simp only [List.map_cons, List.map_nil, List.sum_cons, List.sum_nil, List.not_mem_nil, ↓reduceIte]
    ring

theorem createBufferObject_advances (sound : Sound memory) (size : Nat) (mappable : Bool) (location : Location)
    (reply : BufferReply) :
    Advances memory (memory.step (.createBufferObject size mappable location reply)) fun counter =>
      memory.slip counter (.createBufferObject size mappable location reply) := by
  obtain ⟨same, mapped⟩ := memory.gem.create_same mappable reply
  simp only [step, count, countCreated, slip, importedId, GemState.step, GemState.createBufferObject, List.nil_append]
  rcases created : memory.gem.create mappable reply with ⟨answer, next⟩
  rw [created] at same mapped
  cases answer with
  | none => exact advances_same sound same
  | some answer =>
    obtain ⟨emplaced, sized⟩ := next.tracker.createBufferObject_emplaced size location (mapped answer rfl)
    obtain ⟨enabled, -⟩ := inc_allocSize sound.enabled location memory.pageSize size .hostAllocSize
    have counted := fun counter => (inc_allocSize sound.enabled location memory.pageSize size counter).2
    have dropped := destroyed_allocSize enabled location memory.pageSize size
    cases made : (next.tracker.createBufferObject size mappable location (some answer)).1 with
    | none =>
      apply advances_adopt sound same answer.handle emplaced (List.nil_subset _)
      · simp [made, (dropped .hostAllocSize).1]
      · intro counter
        simp only [made, Option.isSome_none, Bool.false_eq_true, ↓reduceIte, Option.elim_none, add_zero,
          (dropped counter).2, counted counter]
        split
        · ring
        · ring
    | some object =>
      apply advances_adopt sound same answer.handle emplaced (List.nil_subset _)
      · simp [made, enabled]
      · intro counter
        simp only [made, Option.isSome_some, ↓reduceIte, Option.elim_some, List.not_mem_nil, counted counter, add_zero,
          sized object made]

theorem createUntrackedBufferObject_advances (sound : Sound memory) (size : Nat) (mappable : Bool) (reply : BufferReply) :
    Advances memory (memory.step (.createUntrackedBufferObject size mappable reply)) fun _ => 0 := by
  obtain ⟨same, -⟩ := memory.gem.create_same mappable reply
  simp only [step, count, countUntracked, importedId, GemState.step, GemState.createUntrackedBufferObject,
    List.nil_append]
  by_cases empty : size = 0
  · rw [if_pos empty, if_pos empty]
    exact advances_same sound ⟨rfl, rfl⟩
  · rw [if_neg empty, if_neg empty]
    rcases created : memory.gem.create mappable reply with ⟨answer, next⟩
    rw [created] at same
    cases answer with
    | none => exact advances_same sound same
    | some answer =>
      have counted := inc_allocSize sound.enabled .Internal memory.pageSize size
      exact advances_untracked sound same (by decide) _ _ _ _ (counted .hostAllocSize).1 fun counter => (counted counter).2

/-- A user pointer weighs nothing. -/
theorem share_userPtr (pageSize : Nat) (counter : AllocCounter) (size : Nat) :
    share pageSize counter .UserPtr size = 0 := by
  simp [share, Location.counter]

theorem importUserPtr_advances (sound : Sound memory) (userPtr size : Nat) (reply : BufferReply) :
    Advances memory (memory.step (.importUserPtr userPtr size reply)) fun _ => 0 := by
  simp only [step, count, importedId, GemState.step, GemState.importUserPtr, List.nil_append]
  split
  · exact advances_same sound ⟨rfl, rfl⟩
  · rename_i made
    rw [Bool.or_eq_true, not_or, beq_iff_eq] at made
    have emplaced := memory.gem.tracker.importUserPtr_emplaced userPtr size _ reply.vpuAddr made.2
    have opened : GemState.SameObjects memory.gem (memory.gem.openHandle (.own memory.gem.opened)).2 := ⟨rfl, rfl⟩
    apply advances_adopt sound opened _ emplaced (List.nil_subset _) sound.enabled
    intro counter
    cases (memory.gem.tracker.importUserPtr userPtr size _).1 with
    | none => simp
    | some object => simp [share_userPtr]

theorem userPtr_advances (sound : Sound memory) (userPtr size : Nat) (reply : BufferReply) :
    Advances memory (memory.step (.createUntrackedBufferObjectFromUserPtr userPtr size reply)) fun _ => 0 := by
  simp only [step, count, importedId, GemState.step, GemState.createUntrackedBufferObjectFromUserPtr, List.nil_append]
  split
  · exact advances_same sound ⟨rfl, rfl⟩
  · split
    · exact advances_same sound ⟨rfl, rfl⟩
    · have opened : GemState.SameObjects memory.gem (memory.gem.openHandle (.own memory.gem.opened)).2 := ⟨rfl, rfl⟩
      apply advances_untracked sound opened (by decide) _ _ _ _ sound.enabled
      intro counter
      rw [share_userPtr, add_zero]

/-- An import is not counted. -/
theorem importMemory_advances (sound : Sound memory) (kind : MemoryKind) (fd : Nat) (reply : BufferReply) :
    Advances memory (memory.step (.importMemory kind fd reply)) fun _ => 0 := by
  obtain ⟨same, mapped⟩ := memory.gem.importFromFd_same fd reply
  simp only [step, count, importedId, GemState.step, GemState.importMemory]
  rcases imported : memory.gem.importFromFd fd reply with ⟨answer, next⟩
  rw [imported] at same mapped
  cases answer with
  | none => exact advances_same sound same
  | some answer =>
    have emplaced := next.tracker.importBufferObject_emplaced kind.external reply.size (mapped answer rfl)
    apply advances_adopt sound same answer.handle emplaced (List.Subset.refl _) sound.enabled
    intro counter
    cases (next.tracker.importBufferObject kind.external (some (answer, reply.size))).1 with
    | none => simp
    | some object => simp

theorem allowDeleteExternalHandle_counter (location : Location) :
    location.allowDeleteExternalHandle.counter = location.counter := by
  cases location with
  | Internal | Host | Device | Shared | ExternalHost | ExternalDevice | ExternalShared | UserPtr => rfl

theorem freeMemAlloc_advances (sound : Sound memory) (ptr : Nat) :
    Advances memory (memory.step (.freeMemAlloc ptr)) fun counter => memory.slip counter (.freeMemAlloc ptr) := by
  simp only [step, count, slip, importedId, GemState.step, List.nil_append]
  cases freed : memory.gem.freed ptr with
  | none =>
    simp only [GemState.freeMemAlloc, freed]
    exact advances_same sound ⟨rfl, rfl⟩
  | some bo =>
    obtain ⟨live, numbered⟩ := sound.numbered.freeMemAlloc freed
    have created : (memory.gem.tracker.freeMemAlloc ptr).2.created = memory.gem.tracker.created := by
      rw [(GemState.freed_some freed).2]
    have collected := advances_collect sound numbered created rfl (fun other => by
      split
      · exact ⟨rfl, allowDeleteExternalHandle_counter _⟩
      · exact ⟨rfl, rfl⟩) allowDeleteExternalHandle_counter bo.object.id
      fun other _ _ _ => other.location.allowDeleteExternalHandle_inner
    simp only [GemState.freeMemAlloc, freed]
    exact collected

/-- A released object is destroyed only when the map does not hold it: it is no external one. -/
theorem release_advances (sound : Sound memory) (id : Nat) :
    Advances memory (memory.step (.release id)) fun counter => memory.slip counter (.release id) := by
  simp only [step, count, slip, importedId, GemState.step, List.nil_append]
  by_cases held : id ∈ memory.gem.references
  · have released : memory.gem.release id =
        { memory.gem with references := memory.gem.references.erase id }.collect id := by
      rw [GemState.release, if_pos held]
    have same : GemState.SameObjects memory.gem { memory.gem with references := memory.gem.references.erase id } :=
      ⟨rfl, rfl⟩
    rw [released]
    apply advances_collect sound (sound.numbered.same same) rfl (List.map_id _).symm (fun _ => ⟨rfl, rfl⟩)
      (fun _ => rfl)
    intro bo member named untracked
    cases external : bo.location.isExternal with
    | false => rfl
    | true =>
      obtain ⟨entry, inside, rfl⟩ := sound.numbered.external bo member external
      exact absurd (List.mem_map.mpr ⟨entry, inside, named⟩) untracked
  · have kept : memory.gem.release id = memory.gem := by
      rw [GemState.release, if_neg held]
    have alive : memory.gem.destructed memory.gem id = none := GemState.destructed_kept rfl id
    simp only [kept, countDestructed, refund, alive]
    exact advances_same sound ⟨rfl, rfl⟩

theorem step_advances (sound : Sound memory) (call : GemCall) :
    Advances memory (memory.step call) fun counter => memory.slip counter call := by
  cases call with
  | createBufferObject size mappable location reply => exact createBufferObject_advances sound size mappable location reply
  | createUntrackedBufferObject size mappable reply => exact createUntrackedBufferObject_advances sound size mappable reply
  | importUserPtr userPtr size reply => exact importUserPtr_advances sound userPtr size reply
  | createUntrackedBufferObjectFromUserPtr userPtr size reply => exact userPtr_advances sound userPtr size reply
  | importMemory kind fd reply => exact importMemory_advances sound kind fd reply
  | exportMemory ptr granted =>
    apply advances_same sound
    simp only [GemState.step, GemState.exportMemory]
    split
    · exact ⟨rfl, rfl⟩
    · split
      · exact ⟨rfl, rfl⟩
      · exact ⟨rfl, rfl⟩
  | receive source => exact advances_same sound ⟨rfl, rfl⟩
  | freeMemAlloc ptr => exact freeMemAlloc_advances sound ptr
  | lookUp ptr =>
    apply advances_same sound
    simp only [GemState.step, GemState.lookUp]
    split
    · exact ⟨rfl, rfl⟩
    · exact ⟨rfl, rfl⟩
  | share id =>
    apply advances_same sound
    simp only [GemState.step, GemState.share]
    split
    · exact ⟨rfl, rfl⟩
    · exact ⟨rfl, rfl⟩
  | release id => exact release_advances sound id

/-- Each counter is the memory of the live buffers that this process allocated, as far as no exportable buffer was
lost before it could be tracked and no imported one was freed: these leave it too high and too low. -/
theorem counters_explained (numbers : HandleNumbers) (pageSize : Nat) (userPtrCapability : Bool) (calls : List GemCall)
    (counter : AllocCounter) :
    (runFrom step (initial numbers pageSize userPtrCapability) calls).statistics.allocSize counter =
      (runFrom step (initial numbers pageSize userPtrCapability) calls).live counter +
        drift step (slip counter) (initial numbers pageSize userPtrCapability) calls := by
  have sound : Sound (initial numbers pageSize userPtrCapability) :=
    ⟨GemState.initial_numbered numbers pageSize userPtrCapability, by simp [initial], rfl⟩
  have moved := gap_runFrom (fun memory : MeasuredMemory => memory.gap counter)
    (fun memory call sound => (step_advances sound call).sound)
    (fun memory call sound => (step_advances sound call).gap counter) sound calls
  have nothing : (initial numbers pageSize userPtrCapability).gap counter = 0 := sub_self _
  rw [nothing, zero_add] at moved
  exact sub_eq_iff_eq_add'.mp moved

/-- An imported buffer of a page is freed: the counter runs below zero. -/
example :
    (runFrom step (initial risingNumbers 4096 true)
      [.receive 1, .importMemory .Host 0 ⟨true, true, 4096, 4096, 100⟩, .freeMemAlloc 4096]).statistics.allocSize
        .hostAllocSize = -4096#64 := by decide

end MeasuredMemory

end NpuDriver
