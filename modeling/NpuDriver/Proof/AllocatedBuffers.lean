import NpuDriver.Library.Runs
import NpuDriver.Memory.AllocatedSize
import NpuDriver.Proof.NumberedObjects

/-! What the memory queries of a context tell of its live buffers. -/

namespace NpuDriver

open Library
open OrderDual (toDual)

namespace ContextMemory

variable {memory : ContextMemory} {state : GemState}

/-- The buffers that are in one of the two places. -/
def placedIds (memory : ContextMemory) : List Nat := memory.untrackedBuffers ++ memory.gem.trackedIds

/-- Each live buffer that was not freed is in one place, once. -/
structure Placed (memory : ContextMemory) : Prop where
  numbered : memory.gem.Numbered
  distinct : memory.placedIds.Nodup
  counted : ∀ id ∈ memory.placedIds ++ memory.freed, id < memory.gem.tracker.created
  kept : ∀ id ∈ memory.placedIds, id ∉ memory.freed
  placed : ∀ bo ∈ memory.gem.objects, bo.object.id ∈ memory.freed ∨ bo.object.id ∈ memory.placedIds

/-- A step after which the map holds the same buffers and no object is new. -/
theorem Placed.fewer (placed : Placed memory) {after : GemState} (numbered : after.Numbered)
    (tracker : after.tracker = memory.gem.tracker) (objects : ∀ bo ∈ after.objects, bo ∈ memory.gem.objects) :
    Placed { memory with gem := after } := by
  have ids : placedIds { memory with gem := after } = memory.placedIds := by
    simp only [placedIds, GemState.trackedIds, tracker]
  refine ⟨numbered, ?_, ?_, ?_, ?_⟩
  · rw [ids]
    exact placed.distinct
  · rw [ids, tracker]
    exact placed.counted
  · rw [ids]
    exact placed.kept
  · rw [ids]
    exact fun bo member => placed.placed bo (objects bo member)

theorem Placed.same (placed : Placed memory) {after : GemState} (same : GemState.SameObjects memory.gem after) :
    Placed { memory with gem := after } :=
  placed.fewer (placed.numbered.same same) same.tracker fun _ member => same.objects ▸ member

/-- A new object that goes to one of the places, or one that nobody could keep. -/
theorem Placed.made (placed : Placed memory) (new : List Nat) {after : GemState} (numbered : after.Numbered)
    (created : after.tracker.created = memory.gem.tracker.created + 1) {untracked : List Nat}
    (ids : (untracked ++ after.trackedIds).Perm (new ++ memory.placedIds))
    (fresh : new = [] ∨ new = [memory.gem.tracker.created])
    (objects : ∀ bo ∈ after.objects, bo.object.id ∈ new ∨ bo ∈ memory.gem.objects) :
    Placed { memory with gem := after, untrackedBuffers := untracked } := by
  have last : ∀ id ∈ new, id = memory.gem.tracker.created := by
    intro id inside
    rcases fresh with rfl | rfl
    · cases inside
    · exact List.mem_singleton.mp inside
  have older : ∀ id ∈ memory.placedIds ++ memory.freed, id ≠ memory.gem.tracker.created :=
    fun id inside => Nat.ne_of_lt (placed.counted id inside)
  refine ⟨numbered, ids.nodup_iff.mpr ?_, ?_, ?_, ?_⟩
  · rcases fresh with rfl | rfl
    · exact placed.distinct
    · exact List.nodup_cons.mpr ⟨fun inside => older _ (List.mem_append_left _ inside) rfl, placed.distinct⟩
  · intro id inside
    dsimp only
    rw [created]
    rcases List.mem_append.mp inside with at' | gone
    · rcases List.mem_append.mp (ids.mem_iff.mp at') with new' | before
      · rw [last id new']
        exact Nat.lt_succ_self _
      · exact Nat.lt_succ_of_lt (placed.counted id (List.mem_append_left _ before))
    · exact Nat.lt_succ_of_lt (placed.counted id (List.mem_append_right _ gone))
  · intro id inside gone
    rcases List.mem_append.mp (ids.mem_iff.mp inside) with new' | before
    · exact older id (List.mem_append_right _ gone) (last id new')
    · exact placed.kept id before gone
  · intro bo member
    rcases objects bo member with new' | before
    · exact .inr (ids.mem_iff.mpr (List.mem_append_left _ new'))
    · exact (placed.placed bo before).imp_right fun inside => ids.mem_iff.mpr (List.mem_append_right _ inside)

theorem Placed.adopt (placed : Placed memory) {before : GemState} (same : GemState.SameObjects memory.gem before)
    {location : Location} (handle : Nat) {tracked : Option VPUBufferObject × BufferTracker}
    (emplaced : Emplaced before.tracker location tracked) :
    Placed { memory with gem := before.adopt location handle tracked } := by
  have numbered := (placed.numbered.same same).adopt handle emplaced
  obtain ⟨objects, tracker⟩ := before.adopt_objects location handle tracked
  obtain ⟨created, outcome⟩ := emplaced
  rw [same.tracker] at created
  rw [same.objects] at objects
  have ids : (before.adopt location handle tracked).trackedIds =
      tracked.2.trackedBuffers.map fun entry => entry.2.object.id := by
    rw [GemState.trackedIds, tracker]
  cases made : tracked.1 with
  | none =>
    rw [made] at outcome objects
    apply placed.made [] numbered (tracker ▸ created) _ (.inl rfl)
    · intro bo member
      rw [objects] at member
      exact .inr member
    · rw [ids, outcome, same.tracker]
      exact .refl _
  | some object =>
    rw [made] at outcome objects
    obtain ⟨named, -, entries⟩ := outcome
    rw [same.tracker] at named entries
    apply placed.made [object.id] numbered (tracker ▸ created) _ (.inr (by rw [named]))
    · intro bo member
      rw [objects] at member
      rcases List.mem_cons.mp member with rfl | former
      · exact .inl List.mem_cons_self
      · exact .inr former
    · rw [ids]
      have more := (entries.map fun entry => entry.2.object.id).append_left memory.untrackedBuffers
      exact more.trans List.perm_middle

theorem Placed.untracked (placed : Placed memory) {before : GemState} (same : GemState.SameObjects memory.gem before)
    (location : Location) (inner : location.isExternal = false) (handle basePtr size vpuAddr : Nat) :
    Placed { memory with
      gem := before.adoptUntracked location handle basePtr size vpuAddr
      untrackedBuffers := memory.untrackedBuffers ++ [memory.gem.tracker.created] } := by
  have numbered := (placed.numbered.same same).adoptUntracked inner handle basePtr size vpuAddr
  apply placed.made [memory.gem.tracker.created] numbered _ _ (.inr rfl)
  · intro bo member
    rcases List.mem_cons.mp member with rfl | former
    · left
      rw [← same.tracker]
      exact List.mem_cons_self
    · exact .inr (same.objects ▸ former)
  · simp only [GemState.adoptUntracked, same.tracker]
  · simp only [GemState.trackedIds, GemState.adoptUntracked, same.tracker, placedIds]
    rw [List.append_assoc]
    exact List.perm_middle

theorem Placed.collect (placed : Placed memory) (id : Nat) : Placed { memory with gem := memory.gem.collect id } := by
  rcases memory.gem.collect_cases id with same | ⟨-, -, tracker, objects⟩
  · exact placed.same same
  · apply placed.fewer (placed.numbered.collect id) tracker
    intro bo member
    rw [objects] at member
    exact List.mem_of_mem_filter member

/-- What is freed leaves the map, and nothing else does. -/
theorem Placed.freeMemAlloc (placed : Placed memory) (ptr : Nat) :
    Placed (memory.step (.gem (.freeMemAlloc ptr))) := by
  simp only [step, emplaced, newlyFreed, GemState.step, List.append_nil, GemState.freeMemAlloc]
  cases freed : memory.gem.freed ptr with
  | none => exact placed.same ⟨rfl, rfl⟩
  | some bo =>
    obtain ⟨live, numbered⟩ := placed.numbered.freeMemAlloc freed
    obtain ⟨found, erased⟩ := GemState.freed_some freed
    obtain ⟨own, entered, same⟩ := GemState.findBufferObject_mem found
    -- the entries of the map that stay are those of other buffers
    have left : ∀ entry, entry ∈ (memory.gem.tracker.freeMemAlloc ptr).2.trackedBuffers ↔
        entry ∈ memory.gem.tracker.trackedBuffers ∧ entry.2.object.id ≠ bo.object.id := by
      intro entry
      rw [erased]
      refine mem_eraseKey.trans (and_congr_right fun inside => not_congr ⟨fun key => ?_, fun id => ?_⟩)
      · have key' := (placed.numbered.tracked own entered).1
        rw [same] at key'
        have equal : entry = own :=
          List.inj_on_of_nodup_map placed.numbered.keys inside entered (key.trans key'.symm)
        rw [equal, same]
      · obtain ⟨key, listed⟩ := placed.numbered.tracked entry inside
        rw [key, List.inj_on_of_nodup_map placed.numbered.distinct listed live id]
    have tracked : bo.object.id ∈ memory.gem.trackedIds := List.mem_map.mpr ⟨own, entered, by rw [same]⟩
    have sub : (memory.untrackedBuffers ++ ((memory.gem.tracker.freeMemAlloc ptr).2.trackedBuffers.map fun entry =>
        entry.2.object.id)).Sublist memory.placedIds := by
      apply List.Sublist.append_left
      rw [erased]
      exact List.filter_sublist.map _
    have created : (memory.gem.tracker.freeMemAlloc ptr).2.created = memory.gem.tracker.created := by
      rw [erased]
    have before : Placed
        { gem := { memory.gem with
            tracker := (memory.gem.tracker.freeMemAlloc ptr).2
            objects := memory.gem.objects.map fun (other : TrackedBuffer) =>
              if other.object.id = bo.object.id then other.allowDeleteExternalHandle else other }
          untrackedBuffers := memory.untrackedBuffers
          freed := bo.object.id :: memory.freed } := by
      refine ⟨numbered, placed.distinct.sublist sub, ?_, ?_, ?_⟩
      · intro id inside
        dsimp only
        rw [created]
        apply placed.counted id
        rcases List.mem_append.mp inside with at' | gone
        · exact List.mem_append_left _ (sub.subset at')
        · rcases List.mem_cons.mp gone with rfl | older
          · exact List.mem_append_left _ (List.mem_append_right _ tracked)
          · exact List.mem_append_right _ older
      · intro id inside gone
        rcases List.mem_cons.mp gone with rfl | older
        · rcases List.mem_append.mp inside with first | second
          · exact List.disjoint_of_nodup_append placed.distinct first tracked
          · obtain ⟨entry, member, named⟩ := List.mem_map.mp second
            exact ((left entry).mp member).2 named
        · exact placed.kept id (sub.subset inside) older
      · intro other member
        obtain ⟨former, listed, rfl⟩ := List.mem_map.mp member
        have object : (if former.object.id = bo.object.id then
            former.allowDeleteExternalHandle else former).object = former.object := by
          split
          · rfl
          · rfl
        rw [object]
        by_cases self : former.object.id = bo.object.id
        · exact .inl (self ▸ List.mem_cons_self)
        · rcases placed.placed former listed with gone | inside
          · exact .inl (List.mem_cons_of_mem _ gone)
          · right
            rcases List.mem_append.mp inside with first | second
            · exact List.mem_append_left _ first
            · obtain ⟨entry, member', named⟩ := List.mem_map.mp second
              exact List.mem_append_right _
                (List.mem_map.mpr ⟨entry, (left entry).mpr ⟨member', named ▸ self⟩, named⟩)
    exact before.collect bo.object.id

theorem Placed.createUntracked (placed : Placed memory) (size : Nat) (mappable : Bool) (reply : BufferReply) :
    Placed (memory.step (.gem (.createUntrackedBufferObject size mappable reply))) := by
  obtain ⟨same, -⟩ := memory.gem.create_same mappable reply
  simp only [step, emplaced, newlyFreed, GemState.step, List.nil_append, GemState.createUntrackedBufferObject]
  split
  · simpa using placed.same ⟨rfl, rfl⟩
  · rcases created : memory.gem.create mappable reply with ⟨answer, next⟩
    rw [created] at same
    cases answer with
    | none =>
      rw [if_pos (congrArg BufferTracker.created same.tracker), List.append_nil]
      exact placed.same same
    | some answer =>
      have counted : next.tracker.created + 1 ≠ memory.gem.tracker.created := by
        rw [same.tracker]
        exact Nat.succ_ne_self _
      rw [if_neg (show (next.adoptUntracked .Internal answer.handle (if mappable then answer.basePtr else 0) size
        answer.vpuAddr).tracker.created ≠ memory.gem.tracker.created from counted)]
      exact placed.untracked same .Internal (by decide) answer.handle (if mappable then answer.basePtr else 0) size
        answer.vpuAddr

theorem Placed.createFromUserPtr (placed : Placed memory) (userPtr size : Nat) (reply : BufferReply) :
    Placed (memory.step (.gem (.createUntrackedBufferObjectFromUserPtr userPtr size reply))) := by
  simp only [step, emplaced, newlyFreed, GemState.step, List.nil_append,
    GemState.createUntrackedBufferObjectFromUserPtr]
  split
  · simpa using placed.same ⟨rfl, rfl⟩
  · split
    · simpa using placed.same ⟨rfl, rfl⟩
    · have opened : GemState.SameObjects memory.gem (memory.gem.openHandle (.own memory.gem.opened)).2 := ⟨rfl, rfl⟩
      have made := placed.untracked opened .UserPtr (by decide)
        (memory.gem.openHandle (.own memory.gem.opened)).1 (memory.gem.tracker.pageRange userPtr size).base
        (memory.gem.tracker.pageRange userPtr size).size reply.vpuAddr
      simpa [GemState.adoptUntracked, opened.tracker] using made

/-- Calls that append no weak pointer and free nothing. -/
theorem step_gem {call : GemCall} (nothing : memory.emplaced call = []) (kept : memory.newlyFreed call = []) :
    memory.step (.gem call) = { memory with gem := memory.gem.step call } := by
  simp only [step, nothing, kept, List.append_nil, List.nil_append]

theorem Placed.step (placed : Placed memory) (call : ContextMemoryCall) : Placed (memory.step call) := by
  cases call with
  | removeExpiredInternalBuffers =>
    have fewer : (memory.untrackedBuffers.filter fun id => (memory.lock id).isSome).Sublist memory.untrackedBuffers :=
      List.filter_sublist
    have sub := fewer.append_right memory.gem.trackedIds
    refine ⟨placed.numbered, placed.distinct.sublist sub, ?_, fun id inside => placed.kept id (sub.subset inside), ?_⟩
    · intro id inside
      apply placed.counted id
      rcases List.mem_append.mp inside with at' | gone
      · exact List.mem_append_left _ (sub.subset at')
      · exact List.mem_append_right _ gone
    · intro bo member
      refine (placed.placed bo member).imp_right fun inside => ?_
      rcases List.mem_append.mp inside with first | second
      · apply List.mem_append_left
        apply List.mem_filter.mpr
        refine ⟨first, ?_⟩
        unfold lock
        rw [List.find?_isSome]
        exact ⟨bo, member, by simp⟩
      · exact List.mem_append_right _ second
  | gem call =>
    cases call with
    | createBufferObject size mappable location reply =>
      rw [step_gem rfl rfl, GemState.step, GemState.createBufferObject]
      obtain ⟨same, mapped⟩ := memory.gem.create_same mappable reply
      rcases created : memory.gem.create mappable reply with ⟨answer, next⟩
      rw [created] at same mapped
      cases answer with
      | none => exact placed.same same
      | some answer =>
        exact placed.adopt same answer.handle
          (next.tracker.createBufferObject_emplaced size location (mapped answer rfl)).1
    | createUntrackedBufferObject size mappable reply => exact placed.createUntracked size mappable reply
    | importUserPtr userPtr size reply =>
      rw [step_gem rfl rfl, GemState.step, GemState.importUserPtr]
      split
      · exact placed.same ⟨rfl, rfl⟩
      · rename_i made
        rw [Bool.or_eq_true, not_or, beq_iff_eq] at made
        have emplaced := memory.gem.tracker.importUserPtr_emplaced userPtr size _ reply.vpuAddr made.2
        have opened : GemState.SameObjects memory.gem (memory.gem.openHandle (.own memory.gem.opened)).2 := ⟨rfl, rfl⟩
        exact placed.adopt opened _ emplaced
    | createUntrackedBufferObjectFromUserPtr userPtr size reply => exact placed.createFromUserPtr userPtr size reply
    | importMemory kind fd reply =>
      rw [step_gem rfl rfl, GemState.step, GemState.importMemory]
      obtain ⟨same, mapped⟩ := memory.gem.importFromFd_same fd reply
      rcases created : memory.gem.importFromFd fd reply with ⟨answer, next⟩
      rw [created] at same mapped
      cases answer with
      | none => exact placed.same same
      | some answer =>
        exact placed.adopt same answer.handle
          (next.tracker.importBufferObject_emplaced kind.external reply.size (mapped answer rfl))
    | freeMemAlloc ptr => exact placed.freeMemAlloc ptr
    | exportMemory ptr granted =>
      rw [step_gem rfl rfl, GemState.step, GemState.exportMemory]
      split
      · exact placed.same ⟨rfl, rfl⟩
      · split
        · exact placed.same ⟨rfl, rfl⟩
        · exact placed.same ⟨rfl, rfl⟩
    | receive source =>
      rw [step_gem rfl rfl]
      exact placed.same ⟨rfl, rfl⟩
    | lookUp ptr =>
      rw [step_gem rfl rfl, GemState.step, GemState.lookUp]
      split
      · exact placed.same ⟨rfl, rfl⟩
      · exact placed.same ⟨rfl, rfl⟩
    | share id =>
      rw [step_gem rfl rfl, GemState.step, GemState.share]
      split
      · exact placed.same ⟨rfl, rfl⟩
      · exact placed.same ⟨rfl, rfl⟩
    | release id =>
      rw [step_gem rfl rfl, GemState.step, GemState.release]
      split
      · have same : GemState.SameObjects memory.gem { memory.gem with references := memory.gem.references.erase id } :=
          ⟨rfl, rfl⟩
        exact (placed.same same).collect id
      · exact placed.same ⟨rfl, rfl⟩

theorem lock_some {id : Nat} {bo : TrackedBuffer} (found : memory.lock id = some bo) :
    bo ∈ memory.gem.objects ∧ bo.object.id = id :=
  ⟨List.mem_of_find?_eq_some found, by simpa using List.find?_some found⟩

theorem lock_live (numbered : memory.gem.Numbered) {bo : TrackedBuffer} (live : bo ∈ memory.gem.objects) :
    memory.lock bo.object.id = some bo := by
  cases found : memory.lock bo.object.id with
  | none =>
    have absent := List.find?_eq_none.mp found bo live
    simp at absent
  | some other =>
    obtain ⟨member, named⟩ := lock_some found
    rw [List.inj_on_of_nodup_map numbered.distinct member live named]

/-- The buffers that the two queries go over, the untracked ones first. -/
def counted (memory : ContextMemory) : List TrackedBuffer :=
  memory.untrackedBuffers.filterMap memory.lock ++ memory.gem.tracker.trackedBuffers.map Prod.snd

theorem counted_ids (memory : ContextMemory) :
    (memory.counted.map fun bo => bo.object.id).Sublist memory.placedIds := by
  rw [counted, List.map_append, List.map_map]
  apply List.Sublist.append_right
  rw [List.map_filterMap]
  have ids : (memory.untrackedBuffers.filterMap fun id => (memory.lock id).map fun bo => bo.object.id) =
      memory.untrackedBuffers.filter fun id => (memory.lock id).isSome := by
    rw [← List.filterMap_eq_filter]
    apply List.filterMap_congr
    intro id _
    cases found : memory.lock id with
    | none => simp [found, Option.guard]
    | some bo => simp [found, Option.guard, (lock_some found).2]
  rw [ids]
  exact List.filter_sublist

theorem Placed.tracked_iff (placed : Placed memory) {bo : TrackedBuffer} (live : bo ∈ memory.gem.objects) :
    bo ∈ memory.gem.tracker.trackedBuffers.map Prod.snd ↔ bo.object.id ∈ memory.gem.trackedIds := by
  have numbered := placed.numbered
  constructor
  · intro inside
    obtain ⟨entry, member, rfl⟩ := List.mem_map.mp inside
    exact List.mem_map_of_mem (f := fun entry => entry.2.object.id) member
  · intro inside
    obtain ⟨entry, member, named⟩ := List.mem_map.mp inside
    have same := List.inj_on_of_nodup_map numbered.distinct (numbered.tracked entry member).2 live named
    exact List.mem_map.mpr ⟨entry, member, same⟩

/-- The live buffers that were not freed, from both places. -/
theorem Placed.perm (placed : Placed memory) :
    memory.counted.Perm (memory.gem.objects.filter fun bo => bo.object.id ∉ memory.freed) := by
  have numbered := placed.numbered
  have first : memory.counted.Nodup := (placed.distinct.sublist memory.counted_ids).of_map _
  have second : (memory.gem.objects.filter fun bo => bo.object.id ∉ memory.freed).Nodup :=
    (numbered.distinct.of_map _).filter _
  rw [List.perm_ext_iff_of_nodup first second]
  intro bo
  rw [List.mem_filter, decide_eq_true_iff]
  constructor
  · intro inside
    have here : bo.object.id ∈ memory.placedIds :=
      memory.counted_ids.subset (List.mem_map_of_mem (f := fun bo => bo.object.id) inside)
    refine ⟨?_, placed.kept _ here⟩
    rcases List.mem_append.mp inside with weak | tracked
    · obtain ⟨id, -, found⟩ := List.mem_filterMap.mp weak
      exact (lock_some found).1
    · obtain ⟨entry, member, rfl⟩ := List.mem_map.mp tracked
      exact (numbered.tracked entry member).2
  · rintro ⟨live, kept⟩
    have here := (placed.placed bo live).resolve_left kept
    rcases List.mem_append.mp here with weak | tracked
    · exact List.mem_append_left _ (List.mem_filterMap.mpr ⟨_, weak, lock_live numbered live⟩)
    · exact List.mem_append_right _ ((placed.tracked_iff live).mpr tracked)

/-- A live buffer that was not freed is in one of the two places and not in the other one. -/
theorem Placed.one (placed : Placed memory) {bo : TrackedBuffer} (live : bo ∈ memory.gem.objects)
    (kept : bo.object.id ∉ memory.freed) :
    Xor (bo ∈ memory.gem.tracker.trackedBuffers.map Prod.snd) (bo.object.id ∈ memory.untrackedBuffers) := by
  rw [placed.tracked_iff live]
  obtain ⟨-, -, apart⟩ := List.nodup_append.mp placed.distinct
  rcases List.mem_append.mp ((placed.placed bo live).resolve_left kept) with weak | tracked
  · exact .inr ⟨weak, fun tracked => apart _ weak _ tracked rfl⟩
  · exact .inl ⟨tracked, fun weak => apart _ weak _ tracked rfl⟩

/-- A freed buffer is in neither place. -/
theorem Placed.neither (placed : Placed memory) {bo : TrackedBuffer} (live : bo ∈ memory.gem.objects)
    (freed : bo.object.id ∈ memory.freed) :
    bo ∉ memory.gem.tracker.trackedBuffers.map Prod.snd ∧ bo.object.id ∉ memory.untrackedBuffers := by
  rw [placed.tracked_iff live]
  exact ⟨fun tracked => placed.kept _ (List.mem_append_right _ tracked) freed,
    fun weak => placed.kept _ (List.mem_append_left _ weak) freed⟩

theorem initial_placed (numbers : HandleNumbers) (pageSize : Nat) (userPtrCapability : Bool) :
    Placed (initial numbers pageSize userPtrCapability) :=
  ⟨GemState.initial_numbered _ _ _, List.nodup_nil, by simp [initial, placedIds, GemState.trackedIds, GemState.initial,
    BufferTracker.empty], by simp [initial, placedIds, GemState.trackedIds, GemState.initial, BufferTracker.empty],
    by simp [initial, GemState.initial]⟩

/-- After every run the two queries count each live buffer once, which is in one of the two places, but for those
that were freed while somebody held them, which are in neither. -/
theorem allocated_as_live (numbers : HandleNumbers) (pageSize : Nat) (userPtrCapability : Bool)
    (calls : List ContextMemoryCall) :
    let memory := runFrom step (initial numbers pageSize userPtrCapability) calls
    let live := memory.gem.objects.filter fun bo => bo.object.id ∉ memory.freed
    memory.getAllocatedSize = (live.map fun bo => bo.object.allocSize).sum % 2 ^ 64 ∧
      memory.getBuffersCount = live.length ∧
      (∀ bo ∈ live,
        Xor (bo ∈ memory.gem.tracker.trackedBuffers.map Prod.snd) (bo.object.id ∈ memory.untrackedBuffers)) ∧
      ∀ bo ∈ memory.gem.objects, bo.object.id ∈ memory.freed →
        bo ∉ memory.gem.tracker.trackedBuffers.map Prod.snd ∧ bo.object.id ∉ memory.untrackedBuffers := by
  intro memory live
  have placed : Placed memory :=
    run_invariant (fun _ call inside => inside.step call) (initial_placed numbers pageSize userPtrCapability) calls
  have perm : memory.counted.Perm live := placed.perm
  refine ⟨?_, ?_, ?_, fun bo inside freed => placed.neither inside freed⟩
  · rw [← (perm.map fun bo => bo.object.allocSize).sum_nat]
    simp only [getAllocatedSize, counted, List.map_append, List.sum_append, List.map_map, Function.comp_def]
  · rw [← perm.length_eq]
    simp only [getBuffersCount, counted, List.length_append, List.length_map]
    exact Nat.add_comm _ _
  · intro bo inside
    obtain ⟨present, kept⟩ := List.mem_filter.mp inside
    exact placed.one present (of_decide_eq_true kept)

end ContextMemory

end NpuDriver
