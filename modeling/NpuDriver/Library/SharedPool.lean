import Mathlib.Data.List.Basic

/-! Objects that a cache shares with the references of its users. An object is idle when the cache is
its only holder. -/

namespace NpuDriver.Library

variable {Object : Type} {cache : List Object} {references : List (Option Object)} {object : Object}

section Counting

variable [DecidableEq Object]

/-- `use_count` of an object that is held by the cache and the references only. -/
def useCount (cache : List Object) (references : List (Option Object)) (object : Object) : Nat :=
  cache.count object + references.count (some object)

theorem unreferenced_of_idle (cached : object ∈ cache) (idle : useCount cache references object = 1) :
    some object ∉ references := by
  have held := List.count_pos_iff.mpr cached
  rw [useCount] at idle
  intro referenced
  have used := List.count_pos_iff.mpr referenced
  omega

theorem not_idle_of_referenced (cached : object ∈ cache) (referenced : some object ∈ references) :
    useCount cache references object ≠ 1 :=
  fun idle => unreferenced_of_idle cached idle referenced

/-- An object with a reference of each of two kinds has more holders than the cache and one of them. -/
theorem useCount_ne_two {others : List (Option Object)} (cached : object ∈ cache)
    (first : some object ∈ references) (second : some object ∈ others) :
    useCount cache (references ++ others) object ≠ 2 := by
  have held := List.count_pos_iff.mpr cached
  have left := List.count_pos_iff.mpr first
  have right := List.count_pos_iff.mpr second
  rw [useCount, List.count_append]
  omega

/-- The first idle objects are dropped, up to a given number. -/
def dropIdle (idle : Object → Bool) : Nat → List Object → List Object
  | 0, objects => objects
  | _ + 1, [] => []
  | count + 1, object :: rest =>
    if idle object then dropIdle idle count rest else object :: dropIdle idle (count + 1) rest

omit [DecidableEq Object] in
theorem dropIdle_sublist (idle : Object → Bool) (count : Nat) (objects : List Object) :
    (dropIdle idle count objects).Sublist objects := by
  induction objects generalizing count with
  | nil => cases count <;> exact List.Sublist.refl _
  | cons object rest ih =>
    cases count with
    | zero => exact List.Sublist.refl _
    | succ count =>
      rw [dropIdle]
      split
      · exact (ih count).cons _
      · exact (ih (count + 1)).cons_cons _

omit [DecidableEq Object] in
theorem mem_dropIdle (idle : Object → Bool) (count : Nat) {objects : List Object} (member : object ∈ objects)
    (busy : idle object = false) : object ∈ dropIdle idle count objects := by
  induction objects generalizing count with
  | nil => cases member
  | cons first rest ih =>
    cases count with
    | zero => exact member
    | succ count =>
      rw [dropIdle]
      rcases List.mem_cons.mp member with rfl | later
      · rw [busy]
        exact List.mem_cons_self
      · split
        · exact ih count later
        · exact List.mem_cons_of_mem _ (ih (count + 1) later)

omit [DecidableEq Object] in
theorem dropIdle_length (idle : Object → Bool) (count : Nat) (objects : List Object) :
    objects.length ≤ (dropIdle idle count objects).length + count := by
  induction objects generalizing count with
  | nil => exact Nat.zero_le _
  | cons object rest ih =>
    cases count with
    | zero => exact Nat.le_refl _
    | succ count =>
      rw [dropIdle]
      split
      · have shorter := ih count
        rw [List.length_cons]
        omega
      · have shorter := ih (count + 1)
        rw [List.length_cons, List.length_cons]
        omega

omit [DecidableEq Object] in
/-- Nothing is dropped where nothing is idle. -/
theorem dropIdle_busy {idle : Object → Bool} {objects : List Object}
    (busy : ∀ object ∈ objects, idle object = false) (count : Nat) : dropIdle idle count objects = objects := by
  induction objects with
  | nil => cases count <;> rfl
  | cons object rest ih =>
    cases count with
    | zero => rfl
    | succ count =>
      rw [dropIdle, busy object List.mem_cons_self,
        ih fun other member => busy other (List.mem_cons_of_mem _ member)]
      rfl

end Counting

/-- References at different positions are to different objects. -/
def Unshared (references : List (Option Object)) : Prop :=
  ∀ (first second : Nat) (object : Object), references[first]? = some (some object) →
    references[second]? = some (some object) → first = second

/-- A reference that is dropped or moved to an unreferenced object stays unshared. -/
theorem Unshared.set (unshared : Unshared references) (position : Nat)
    (fresh : ∀ object, reference = some object → some object ∉ references) :
    Unshared (references.set position reference) := by
  have other : ∀ (index : Nat) (object : Object),
      (references.set position reference)[index]? = some (some object) →
        index = position ∧ reference = some object ∨ references[index]? = some (some object) := by
    intro index object found
    rw [List.getElem?_set] at found
    split at found
    · rename_i same
      split at found
      · exact .inl ⟨same.symm, Option.some.inj found⟩
      · cases found
    · exact .inr found
  intro first second object left right
  rcases other first object left with ⟨rfl, moved⟩ | kept
  · rcases other second object right with ⟨rfl, -⟩ | older
    · rfl
    · exact (fresh object moved (List.mem_of_getElem? older)).elim
  · rcases other second object right with ⟨rfl, moved⟩ | older
    · exact (fresh object moved (List.mem_of_getElem? kept)).elim
    · exact unshared first second object kept older

/-- Dropping references shares nothing new. -/
theorem Unshared.drop {next : List (Option Object)} (unshared : Unshared references)
    (fewer : ∀ (index : Nat) (object : Object),
      next[index]? = some (some object) → references[index]? = some (some object)) : Unshared next :=
  fun first second object left right => unshared first second object (fewer _ _ left) (fewer _ _ right)

end NpuDriver.Library
