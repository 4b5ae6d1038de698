import NpuDriver.Device.TrackedBuffers
import NpuDriver.Library.Runs

/-! Looking pointers up in the map of tracked buffers. -/

namespace NpuDriver

open Library
open OrderDual (toDual ofDual)

variable {tracker : BufferTracker} {ptr : Nat}

def TrackedBuffer.Contains (bo : TrackedBuffer) (ptr : Nat) : Prop := bo.object.isInRange ptr = true

instance (bo : TrackedBuffer) : Decidable (bo.Contains ptr) := inferInstanceAs (Decidable (_ = true))

namespace BufferTracker

/-- Lookups find a tracked buffer around every address that has one, and the free of a buffer changes
nothing for the addresses outside it. -/
structure LookupsRight (tracker : BufferTracker) : Prop where
  found : ∀ ptr, (∃ entry ∈ tracker.trackedBuffers, entry.2.Contains ptr) →
    ∃ entry ∈ tracker.trackedBuffers, tracker.findBufferObject ptr = some entry.2 ∧ entry.2.Contains ptr
  missed : ∀ ptr, (∀ entry ∈ tracker.trackedBuffers, ¬ entry.2.Contains ptr) →
    tracker.findBufferObject ptr = none
  freed : ∀ pointer ptr, (∀ entry ∈ tracker.trackedBuffers,
      entry ∉ (tracker.freeMemAlloc pointer).2.trackedBuffers → ¬ entry.2.Contains ptr) →
    (tracker.freeMemAlloc pointer).2.findBufferObject ptr = tracker.findBufferObject ptr

/-- Of two ranges the one that starts later does not end earlier. -/
def Staggered (left right : AddressRange) : Prop :=
  (left.base < right.base → left.stop ≤ right.stop) ∧ (right.base < left.base → right.stop ≤ left.stop)

instance (left right : AddressRange) : Decidable (Staggered left right) :=
  inferInstanceAs (Decidable (_ ∧ _))

/-- The range that a call adds if its base is free, `none` where the call fails anyway. -/
def adds (tracker : BufferTracker) : TrackerCall → Option AddressRange
  | .createBufferObject size mappable _ (some answer) =>
    if mappable && answer.basePtr == 0 then none else some ⟨if mappable then answer.basePtr else 0, size⟩
  | .importBufferObject _ (some (answer, size)) =>
    if answer.basePtr = 0 then none else some ⟨answer.basePtr, size⟩
  | .importUserPtr userPtr size (some _) =>
    if userPtr = 0 ∨ size = 0 ∨ tracker.userPtrCapability = false then none
    else if (tracker.findBufferObject userPtr).isSome then none
    else if 2 ^ 64 < (tracker.pageRange userPtr size).stop then none
    else some (tracker.pageRange userPtr size)
  | _ => none

/-- A range that is added does not start at the null pointer, and neither starts before and ends behind
a tracked range nor starts behind and ends before one. -/
def HidesNothing (tracker : BufferTracker) (call : TrackerCall) : Prop :=
  match tracker.adds call with
  | none => True
  | some range =>
    (∀ entry ∈ tracker.trackedBuffers, entry.2.object.basePtr ≠ range.base) →
      range.base ≠ 0 ∧ ∀ entry ∈ tracker.trackedBuffers, Staggered entry.2.object.range range

instance (call : TrackerCall) : Decidable (tracker.HidesNothing call) := by
  rw [HidesNothing]
  split <;> infer_instance

structure TrackerInvariant (tracker : BufferTracker) : Prop where
  sorted : Ascending tracker.trackedBuffers
  keyed : ∀ entry ∈ tracker.trackedBuffers, entry.1 = toDual entry.2.object.basePtr
  mapped : ∀ entry ∈ tracker.trackedBuffers, entry.2.object.basePtr ≠ 0
  staggered : ∀ left ∈ tracker.trackedBuffers, ∀ right ∈ tracker.trackedBuffers,
    left.2.object.basePtr < right.2.object.basePtr → left.2.object.range.stop ≤ right.2.object.range.stop

theorem contains_iff {bo : TrackedBuffer} :
    bo.Contains ptr ↔ bo.object.basePtr ≤ ptr ∧ ptr < bo.object.range.stop := by
  simp [TrackedBuffer.Contains, VPUBufferObject.isInRange, VPUBufferObject.range, AddressRange.stop]

/-- The search stops at the last buffer that starts at or before the pointer. -/
theorem find_some (invariant : TrackerInvariant tracker) {entry : Natᵒᵈ × TrackedBuffer}
    (found : (tracker.trackedBuffers.find? fun entry => ofDual entry.1 ≤ ptr) = some entry) :
    entry ∈ tracker.trackedBuffers ∧ entry.2.object.basePtr ≤ ptr ∧
      ∀ other ∈ tracker.trackedBuffers, other.2.object.basePtr ≤ ptr →
        other = entry ∨ other.2.object.basePtr < entry.2.object.basePtr := by
  obtain ⟨member, below, least⟩ := find_least invariant.sorted found
  have key := invariant.keyed entry member
  rw [key, decide_eq_true_eq] at below
  refine ⟨member, below, fun other inside starts => ?_⟩
  have otherKey := invariant.keyed other inside
  have tested : decide (ofDual other.1 ≤ ptr) = true := by
    rw [otherKey, decide_eq_true_eq]
    exact starts
  refine (least other inside tested).imp_right fun less => ?_
  rw [key, otherKey] at less
  exact less

theorem findBufferObject_contains (found : tracker.findBufferObject ptr = some bo) :
    ∃ entry ∈ tracker.trackedBuffers, entry.2 = bo ∧ bo.Contains ptr := by
  rw [findBufferObject] at found
  split at found
  · cases found
  · split at found
    · cases found
    · rename_i key held hit
      split at found
      · rename_i inside
        cases found
        exact ⟨(key, bo), List.mem_of_find?_eq_some hit, rfl, inside⟩
      · cases found

/-- Whatever buffer contains a pointer, the one that the search stops at contains it too. -/
theorem find_containing (invariant : TrackerInvariant tracker)
    (contained : ∃ entry ∈ tracker.trackedBuffers, entry.2.Contains ptr) :
    ∃ entry ∈ tracker.trackedBuffers,
      (tracker.trackedBuffers.find? fun entry => ofDual entry.1 ≤ ptr) = some entry ∧
        tracker.findBufferObject ptr = some entry.2 ∧ entry.2.Contains ptr := by
  obtain ⟨holder, member, contains⟩ := contained
  obtain ⟨starts, stops⟩ := contains_iff.mp contains
  have positive : ptr ≠ 0 := by
    have mapped := invariant.mapped holder member
    omega
  cases found : tracker.trackedBuffers.find? fun entry => ofDual entry.1 ≤ ptr with
  | none =>
    have unmatched := List.find?_eq_none.mp found holder member
    rw [invariant.keyed holder member, decide_eq_true_eq] at unmatched
    exact (unmatched starts).elim
  | some entry =>
    obtain ⟨inside, below, last⟩ := find_some invariant found
    have reaches : ptr < entry.2.object.range.stop := by
      rcases last holder member starts with rfl | less
      · exact stops
      · exact Nat.lt_of_lt_of_le stops (invariant.staggered holder member entry inside less)
    have holds : entry.2.Contains ptr := contains_iff.mpr ⟨below, reaches⟩
    refine ⟨entry, inside, rfl, ?_, holds⟩
    rw [findBufferObject, if_neg positive, found]
    exact if_pos holds

namespace TrackerInvariant

theorem empty (pageSize : Nat) (userPtrCapability : Bool) :
    TrackerInvariant (BufferTracker.empty pageSize userPtrCapability) where
  sorted := List.Pairwise.nil
  keyed := nofun
  mapped := nofun
  staggered := nofun

/-- The invariant of a map with fewer or the same entries. -/
theorem fewer {next : BufferTracker} (invariant : TrackerInvariant tracker)
    (sorted : Ascending next.trackedBuffers) (subset : next.trackedBuffers ⊆ tracker.trackedBuffers) :
    TrackerInvariant next where
  sorted := sorted
  keyed := fun entry member => invariant.keyed entry (subset member)
  mapped := fun entry member => invariant.mapped entry (subset member)
  staggered := fun left first right second => invariant.staggered left (subset first) right (subset second)

theorem track (invariant : TrackerInvariant tracker) (object : VPUBufferObject) (location : Location)
    (fits : (∀ entry ∈ tracker.trackedBuffers, entry.2.object.basePtr ≠ object.range.base) →
      object.range.base ≠ 0 ∧ ∀ entry ∈ tracker.trackedBuffers, Staggered entry.2.object.range object.range) :
    TrackerInvariant (tracker.track object location).2 := by
  rw [BufferTracker.track]
  split
  · exact invariant.fewer invariant.sorted (List.Subset.refl _)
  · rename_i free
    have unused : ∀ entry ∈ tracker.trackedBuffers, entry.2.object.basePtr ≠ object.range.base := by
      intro entry member same
      refine free (List.mem_map.mpr ⟨entry, member, ?_⟩)
      rw [invariant.keyed entry member]
      exact congrArg toDual same
    obtain ⟨mapped, staggered⟩ := fits unused
    have members : ∀ entry, entry ∈ emplace (toDual object.basePtr) ⟨object, location⟩ tracker.trackedBuffers →
        entry = (toDual object.basePtr, ⟨object, location⟩) ∨ entry ∈ tracker.trackedBuffers :=
      fun entry => (mem_emplace_iff free _).mp
    constructor
    · exact emplace_ascending invariant.sorted _ _
    · intro entry member
      rcases members entry member with rfl | earlier
      · rfl
      · exact invariant.keyed entry earlier
    · intro entry member
      rcases members entry member with rfl | earlier
      · exact mapped
      · exact invariant.mapped entry earlier
    · intro left first right second less
      rcases members left first with rfl | leftEarlier
      · rcases members right second with rfl | rightEarlier
        · exact (Nat.lt_irrefl _ less).elim
        · exact (staggered right rightEarlier).2 less
      · rcases members right second with rfl | rightEarlier
        · exact (staggered left leftEarlier).1 less
        · exact invariant.staggered left leftEarlier right rightEarlier less

theorem freeMemAlloc (invariant : TrackerInvariant tracker) (pointer : Nat) :
    TrackerInvariant (tracker.freeMemAlloc pointer).2 := by
  rw [BufferTracker.freeMemAlloc]
  split
  · exact invariant
  · split
    · exact invariant
    · exact invariant.fewer (eraseKey_ascending invariant.sorted _) fun entry member =>
        (mem_eraseKey.mp member).1

theorem step (call : TrackerCall) (invariant : TrackerInvariant tracker) (hides : tracker.HidesNothing call) :
    TrackerInvariant (tracker.step call) := by
  cases call with
  | createBufferObject size mappable location answer =>
    cases answer with
    | none => exact invariant
    | some answer =>
      simp only [BufferTracker.step, createBufferObject]
      split
      · exact invariant
      · rename_i mapped
        rw [HidesNothing, adds, if_neg mapped] at hides
        exact invariant.track _ location hides
  | importBufferObject location answer =>
    cases answer with
    | none => exact invariant
    | some answer =>
      simp only [BufferTracker.step, importBufferObject]
      split
      · exact invariant
      · rename_i mapped
        rw [HidesNothing, adds, if_neg mapped] at hides
        exact invariant.track _ location hides
  | importUserPtr userPtr size answer =>
    rw [BufferTracker.step, importUserPtr]
    split
    · exact invariant
    · rename_i valid
      split
      · exact invariant
      · rename_i free
        cases answer with
        | none => exact invariant
        | some answer =>
          simp only
          split
          · exact invariant
          · rename_i inside
            rw [HidesNothing, adds, if_neg valid, if_neg free, if_neg inside] at hides
            exact invariant.track _ .UserPtr hides
  | freeMemAlloc pointer => exact invariant.freeMemAlloc pointer

theorem missed
    (outside : ∀ entry ∈ tracker.trackedBuffers, ¬ entry.2.Contains ptr) :
    tracker.findBufferObject ptr = none := by
  cases found : tracker.findBufferObject ptr with
  | none => rfl
  | some bo =>
    obtain ⟨entry, member, rfl, contains⟩ := findBufferObject_contains found
    exact (outside entry member contains).elim

/-- After a free, an address outside the freed buffer is still found in the same buffer. -/
theorem freed (invariant : TrackerInvariant tracker) (pointer : Nat)
    (others : ∀ entry ∈ tracker.trackedBuffers,
      entry ∉ (tracker.freeMemAlloc pointer).2.trackedBuffers → ¬ entry.2.Contains ptr) :
    (tracker.freeMemAlloc pointer).2.findBufferObject ptr = tracker.findBufferObject ptr := by
  by_cases contained : ∃ entry ∈ tracker.trackedBuffers, entry.2.Contains ptr
  · obtain ⟨entry, member, search, found, contains⟩ := find_containing invariant contained
    have kept : entry ∈ (tracker.freeMemAlloc pointer).2.trackedBuffers := by
      by_contra gone
      exact others entry member gone contains
    have remains : ((tracker.freeMemAlloc pointer).2.trackedBuffers.find?
        fun entry => ofDual entry.1 ≤ ptr) = some entry := by
      rw [BufferTracker.freeMemAlloc] at kept ⊢
      split
      · exact search
      · split
        · exact search
        · rename_i bo hit allowed
          rw [hit] at kept
          simp only [if_neg allowed] at kept
          exact find_eraseKey search (mem_eraseKey.mp kept).2
    have positive : ptr ≠ 0 := by
      rintro rfl
      cases found
    rw [found, findBufferObject, if_neg positive, remains]
    exact if_pos contains
  · have outside : ∀ entry ∈ tracker.trackedBuffers, ¬ entry.2.Contains ptr :=
      fun entry member contains => contained ⟨entry, member, contains⟩
    rw [missed outside]
    refine missed fun entry member => outside entry ?_
    rw [BufferTracker.freeMemAlloc] at member
    split at member
    · exact member
    · split at member
      · exact member
      · exact (mem_eraseKey.mp member).1

theorem lookupsRight (invariant : TrackerInvariant tracker) : LookupsRight tracker where
  found := fun _ contained =>
    have ⟨entry, member, _, found, contains⟩ := find_containing invariant contained
    ⟨entry, member, found, contains⟩
  missed := fun _ outside => missed outside
  freed := fun pointer _ others => invariant.freed pointer others

end TrackerInvariant

end BufferTracker

open BufferTracker

/-- In every run whose additions hide no tracked range, lookups are right. -/
theorem lookups_right (pageSize : Nat) (userPtrCapability : Bool) (calls : List TrackerCall)
    (hides : Guarded BufferTracker.step HidesNothing (BufferTracker.empty pageSize userPtrCapability) calls) :
    LookupsRight (runFrom BufferTracker.step (BufferTracker.empty pageSize userPtrCapability) calls) :=
  (guarded_invariant (fun _ call invariant allowed => TrackerInvariant.step call invariant allowed)
    (TrackerInvariant.empty pageSize userPtrCapability) hides).lookupsRight

/-- A device allocation, and two user ranges in different pages. -/
def separateImports : List TrackerCall :=
  [.createBufferObject 8192 true .Device (some ⟨1, 0x20000, 0x80000000⟩),
    .importUserPtr 0x11800 0x100 (some (2, 0x90000000)), .importUserPtr 0x12010 0x3000 (some (3, 0xa0000000)),
    .freeMemAlloc 0x11800]

theorem lookups_right_separate :
    LookupsRight (runFrom BufferTracker.step (BufferTracker.empty 4096 true) separateImports) :=
  lookups_right 4096 true separateImports (by decide +kernel)

/-- A page of user memory, and then a range of four pages around it. -/
def nestedImports : List TrackerCall :=
  [.importUserPtr 0x11000 0x1000 (some (1, 0x90000000)), .importUserPtr 0x10800 0x3000 (some (2, 0xa0000000))]

/-- Behind the inner range the outer one is not found. -/
theorem nested_import_hidden :
    ¬ LookupsRight (runFrom BufferTracker.step (BufferTracker.empty 4096 true) nestedImports) := by
  intro right
  obtain ⟨entry, -, found, -⟩ := right.found 0x13000 (by decide +kernel)
  have missed : (runFrom BufferTracker.step (BufferTracker.empty 4096 true) nestedImports).findBufferObject
      0x13000 = none := by decide +kernel
  rw [missed] at found
  cases found

end NpuDriver
