import Mathlib.Data.List.Basic
import Mathlib.Data.List.Nodup

/-! Lists without repetitions that are edited in place: elements are appended when absent,
and groups of elements are taken out and replaced. -/

namespace NpuDriver.Library

variable {α : Type} [DecidableEq α]

/-- Append an element unless the list has it already. -/
def addUnique (xs : List α) (x : α) : List α :=
  if x ∈ xs then xs else xs ++ [x]

def addAllUnique (xs added : List α) : List α := added.foldl addUnique xs

@[simp] theorem mem_addUnique {xs : List α} : y ∈ addUnique xs x ↔ y ∈ xs ∨ y = x := by
  unfold addUnique
  split
  · rename_i member
    constructor
    · exact .inl
    · rintro (present | rfl)
      · exact present
      · exact member
  · simp

theorem addUnique_nodup {xs : List α} (nodup : xs.Nodup) (x : α) : (addUnique xs x).Nodup := by
  unfold addUnique
  split
  · exact nodup
  · rename_i absent
    simpa [List.concat_eq_append] using nodup.concat absent

theorem prefix_addUnique (xs : List α) (x : α) : xs <+: addUnique xs x := by
  unfold addUnique
  split
  · exact List.prefix_refl xs
  · exact List.prefix_append xs [x]

@[simp] theorem mem_addAllUnique {xs added : List α} :
    y ∈ addAllUnique xs added ↔ y ∈ xs ∨ y ∈ added := by
  induction added generalizing xs with
  | nil => simp [addAllUnique]
  | cons x rest ih =>
    have step : y ∈ addAllUnique (addUnique xs x) rest ↔ y ∈ addUnique xs x ∨ y ∈ rest := ih
    change y ∈ addAllUnique (addUnique xs x) rest ↔ _
    rw [step, mem_addUnique, List.mem_cons, or_assoc]

theorem addAllUnique_append (xs first second : List α) :
    addAllUnique xs (first ++ second) = addAllUnique (addAllUnique xs first) second := by
  simp [addAllUnique]

theorem addAllUnique_nodup {xs : List α} (nodup : xs.Nodup) (added : List α) :
    (addAllUnique xs added).Nodup := by
  induction added generalizing xs with
  | nil => exact nodup
  | cons x rest ih => exact ih (addUnique_nodup nodup x)

theorem prefix_addAllUnique (xs added : List α) : xs <+: addAllUnique xs added := by
  induction added generalizing xs with
  | nil => exact List.prefix_refl xs
  | cons x rest ih => exact (prefix_addUnique xs x).trans (ih (addUnique xs x))

/-- One replacement: all of `removed` go, then the missing ones of `added` are appended. -/
structure Edit (α : Type) where
  removed : List α
  added : List α

namespace Edit

def apply (edit : Edit α) (xs : List α) : List α :=
  addAllUnique (xs.filter fun x => x ∉ edit.removed) edit.added

def applyAll (edits : List (Edit α)) (xs : List α) : List α :=
  edits.foldl (fun current edit => edit.apply current) xs

/-- Some replacement takes the element away and no later one brings it back. -/
def GivesUp : List (Edit α) → α → Prop
  | [], _ => False
  | edit :: rest, x =>
    (x ∈ edit.removed ∧ x ∉ edit.added ∧ ∀ later ∈ rest, x ∉ later.added) ∨ GivesUp rest x

instance instDecidableGivesUp : (edits : List (Edit α)) → (x : α) → Decidable (GivesUp edits x)
  | [], _ => instDecidableFalse
  | edit :: rest, x =>
    have := instDecidableGivesUp rest x
    inferInstanceAs (Decidable ((x ∈ edit.removed ∧ x ∉ edit.added ∧ ∀ later ∈ rest, x ∉ later.added) ∨
      GivesUp rest x))

theorem mem_apply {edit : Edit α} {xs : List α} :
    x ∈ edit.apply xs ↔ x ∈ xs ∧ x ∉ edit.removed ∨ x ∈ edit.added := by
  simp [apply]

theorem apply_nodup {xs : List α} (edit : Edit α) (nodup : xs.Nodup) : (edit.apply xs).Nodup :=
  addAllUnique_nodup (nodup.filter _) edit.added

theorem applyAll_nodup {xs : List α} (edits : List (Edit α)) (nodup : xs.Nodup) :
    (applyAll edits xs).Nodup := by
  induction edits generalizing xs with
  | nil => exact nodup
  | cons edit rest ih => exact ih (edit.apply_nodup nodup)

theorem applyAll_append (first second : List (Edit α)) (xs : List α) :
    applyAll (first ++ second) xs = applyAll second (applyAll first xs) := by
  simp [applyAll]

/-- An element is listed after a series of replacements when it was known at all and is not
given up. -/
theorem mem_applyAll {edits : List (Edit α)} {xs : List α} :
    x ∈ applyAll edits xs ↔ (x ∈ xs ∨ ∃ edit ∈ edits, x ∈ edit.added) ∧ ¬ GivesUp edits x := by
  induction edits generalizing xs with
  | nil => simp [applyAll, GivesUp]
  | cons edit rest ih =>
    have step : x ∈ applyAll rest (edit.apply xs) ↔
        (x ∈ edit.apply xs ∨ ∃ later ∈ rest, x ∈ later.added) ∧ ¬ GivesUp rest x := ih
    change x ∈ applyAll rest (edit.apply xs) ↔ _
    rw [step, mem_apply]
    by_cases later : ∃ edit ∈ rest, x ∈ edit.added
    · have kept : ¬ ∀ edit ∈ rest, x ∉ edit.added := by
        obtain ⟨edit, member, added⟩ := later
        exact fun absent => absent edit member added
      simp [GivesUp, later, kept]
    · have never : ∀ edit ∈ rest, x ∉ edit.added := fun edit member added =>
        later ⟨edit, member, added⟩
      simp only [GivesUp, later, or_false, List.mem_cons, exists_eq_or_imp]
      tauto

/-- A replacement that takes nothing from a leading part of the list leaves it in place. -/
theorem prefix_apply {edit : Edit α} {front xs : List α} (leading : front <+: xs)
    (untouched : ∀ x ∈ front, x ∉ edit.removed) : front <+: edit.apply xs := by
  have kept : front.filter (fun x => x ∉ edit.removed) = front :=
    List.filter_eq_self.mpr fun x member => by simpa using untouched x member
  obtain ⟨rest, rfl⟩ := leading
  have filtered : front <+: (front ++ rest).filter fun x => x ∉ edit.removed := by
    rw [List.filter_append, kept]
    exact List.prefix_append front _
  exact filtered.trans (prefix_addAllUnique _ edit.added)

theorem prefix_applyAll {edits : List (Edit α)} {front xs : List α} (leading : front <+: xs)
    (untouched : ∀ edit ∈ edits, ∀ x ∈ front, x ∉ edit.removed) : front <+: applyAll edits xs := by
  induction edits generalizing xs with
  | nil => exact leading
  | cons edit rest ih =>
    have first := untouched edit (List.mem_cons_self ..)
    exact ih (prefix_apply leading first) fun later member =>
      untouched later (List.mem_cons_of_mem edit member)

end Edit

theorem eraseDups_nodup (xs : List α) : xs.eraseDups.Nodup := by
  induction length : xs.length using Nat.strongRecOn generalizing xs with
  | ind size ih =>
    cases xs with
    | nil => exact List.nodup_nil
    | cons x rest =>
      rw [List.eraseDups_cons, List.nodup_cons]
      constructor
      · rw [List.mem_eraseDups]
        simp
      · apply ih _ _ _ rfl
        rw [← length, List.length_cons]
        exact Nat.lt_succ_of_le (List.length_filter_le ..)

theorem eraseDups_of_nodup {xs : List α} (nodup : xs.Nodup) : xs.eraseDups = xs := by
  induction xs with
  | nil => rfl
  | cons x rest ih =>
    obtain ⟨absent, others⟩ := List.nodup_cons.mp nodup
    have kept : (rest.filter fun y => !y == x) = rest := by
      apply List.filter_eq_self.mpr
      intro y member
      have different : y ≠ x := fun same => absent (same ▸ member)
      simpa using different
    rw [List.eraseDups_cons, kept, ih others]

end NpuDriver.Library
