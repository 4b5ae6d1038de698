import Mathlib.Data.List.Basic
import Mathlib.Data.List.Nodup
import NpuDriver.Library.Pointwise

/-! Maps kept as lists of entries with distinct keys, changed entry by entry. -/

namespace NpuDriver.Library

variable {Key : Type} [DecidableEq Key] {Value : Type}

/-- `map[key]`, which inserts a default, followed by a change of the value. -/
def modifyEntry (key : Key) (initial : Value) (change : Value → Value) :
    List (Key × Value) → List (Key × Value)
  | [] => [(key, change initial)]
  | (known, value) :: rest =>
    if known = key then (known, change value) :: rest
    else (known, value) :: modifyEntry key initial change rest

/-- The keys are distinct, as in a map. -/
def DistinctKeys (entries : List (Key × Value)) : Prop := (entries.map Prod.fst).Nodup

theorem mem_keys_modifyEntry {entries : List (Key × Value)} :
    other ∈ (modifyEntry key initial change entries).map Prod.fst ↔
      other = key ∨ other ∈ entries.map Prod.fst := by
  induction entries with
  | nil => simp [modifyEntry]
  | cons entry rest ih =>
    obtain ⟨known, value⟩ := entry
    unfold modifyEntry
    split
    · rename_i same
      simp [same]
    · rw [List.map_cons, List.mem_cons, ih, List.map_cons, List.mem_cons]
      tauto

theorem modifyEntry_distinct {entries : List (Key × Value)} (distinct : DistinctKeys entries) :
    DistinctKeys (modifyEntry key initial change entries) := by
  induction entries with
  | nil => simp [modifyEntry, DistinctKeys]
  | cons entry rest ih =>
    obtain ⟨known, value⟩ := entry
    obtain ⟨fresh, others⟩ := List.nodup_cons.mp distinct
    unfold modifyEntry
    split
    · exact List.nodup_cons.mpr ⟨fresh, others⟩
    · rename_i different
      refine List.nodup_cons.mpr ⟨?_, ih others⟩
      intro member
      rcases mem_keys_modifyEntry.mp member with same | listed
      · exact different same
      · exact fresh listed

/-- A property of all values survives a change that keeps it. -/
theorem forall_modifyEntry (Valid : Value → Prop) {entries : List (Key × Value)}
    (all : ∀ entry ∈ entries, Valid entry.2) (fresh : Valid (change initial))
    (keeps : ∀ value, Valid value → Valid (change value)) :
    ∀ entry ∈ modifyEntry key initial change entries, Valid entry.2 := by
  induction entries with
  | nil =>
    intro entry member
    rw [List.mem_singleton.mp member]
    exact fresh
  | cons first rest ih =>
    obtain ⟨known, value⟩ := first
    have head := all _ (List.mem_cons_self ..)
    have others : ∀ entry ∈ rest, Valid entry.2 := fun entry member =>
      all entry (List.mem_cons_of_mem _ member)
    unfold modifyEntry
    intro entry member
    split at member
    · rcases List.mem_cons.mp member with rfl | later
      · exact keeps value head
      · exact others entry later
    · rcases List.mem_cons.mp member with rfl | later
      · exact head
      · exact ih others entry later

theorem lookup_cons_eq (known other : Key) (value : Value) (rest : List (Key × Value)) :
    ((known, value) :: rest).lookup other = if other = known then some value else rest.lookup other := by
  by_cases same : other = known
  · simp [same]
  · have different : (other == known) = false := beq_false_of_ne same
    simp [List.lookup_cons, different, same]

theorem lookup_modifyEntry (entries : List (Key × Value)) (key other : Key) :
    (modifyEntry key initial change entries).lookup other =
      if other = key then some (change ((entries.lookup key).getD initial)) else entries.lookup other := by
  induction entries with
  | nil => simp [modifyEntry, lookup_cons_eq]
  | cons entry rest ih =>
    obtain ⟨known, value⟩ := entry
    unfold modifyEntry
    by_cases found : known = key
    · subst found
      simp only [↓reduceIte, lookup_cons_eq, Option.getD_some]
      split <;> rfl
    · have other_key : ¬ key = known := fun equal => found equal.symm
      simp only [if_neg found, lookup_cons_eq, ih, if_neg other_key]
      by_cases head : other = known
      · simp [head, found]
      · simp [head]

/-- With distinct keys an entry is found exactly when it is listed. -/
theorem mem_iff_lookup {entries : List (Key × Value)} (distinct : DistinctKeys entries) :
    (key, value) ∈ entries ↔ entries.lookup key = some value := by
  induction entries with
  | nil => simp
  | cons entry rest ih =>
    obtain ⟨known, stored⟩ := entry
    obtain ⟨fresh, others⟩ := List.nodup_cons.mp distinct
    rw [List.mem_cons, lookup_cons_eq]
    by_cases same : key = known
    · subst same
      have absent : (key, value) ∉ rest := fun member =>
        fresh (List.mem_map.mpr ⟨(key, value), member, rfl⟩)
      simp only [Prod.mk.injEq, true_and, absent, or_false, ↓reduceIte, Option.some.injEq]
      exact eq_comm
    · simp only [Prod.mk.injEq, same, false_and, false_or, ↓reduceIte]
      exact ih others

theorem mem_keys_iff_lookup {entries : List (Key × Value)} (distinct : DistinctKeys entries) :
    key ∈ entries.map Prod.fst ↔ ∃ value, entries.lookup key = some value := by
  constructor
  · intro member
    obtain ⟨⟨known, value⟩, listed, rfl⟩ := List.mem_map.mp member
    exact ⟨value, (mem_iff_lookup distinct).mp listed⟩
  · rintro ⟨value, found⟩
    exact List.mem_map.mpr ⟨(key, value), (mem_iff_lookup distinct).mpr found, rfl⟩

omit [DecidableEq Key] in
theorem DistinctKeys.perm {entries arranged : List (Key × Value)} (distinct : DistinctKeys entries)
    (same : arranged.Perm entries) : DistinctKeys arranged :=
  (same.map Prod.fst).nodup_iff.mpr distinct

/-- The same keys with related values. -/
def RelatedEntries (R : Value → Value → Prop) (before after : Key × Value) : Prop :=
  after.1 = before.1 ∧ R before.2 after.2

theorem lookup_related {R : Value → Value → Prop} {entries changed : List (Key × Value)}
    (related : List.Forall₂ (RelatedEntries R) entries changed) (found : entries.lookup key = some value) :
    ∃ other, changed.lookup key = some other ∧ R value other := by
  induction related with
  | nil => cases found
  | @cons before after entries changed head _ ih =>
    obtain ⟨known, stored⟩ := before
    obtain ⟨same, next⟩ := after
    obtain ⟨rfl, holds⟩ := head
    rw [lookup_cons_eq] at found ⊢
    by_cases own : key = same
    · rw [if_pos own] at found ⊢
      cases found
      exact ⟨next, rfl, holds⟩
    · rw [if_neg own] at found ⊢
      exact ih found

theorem modifyEntry_related {R : Value → Value → Prop} (refl : ∀ value, R value value)
    {entries : List (Key × Value)} (found : entries.lookup key = some value) (related : R value (change value)) :
    List.Forall₂ (RelatedEntries R) entries (modifyEntry key initial change entries) := by
  induction entries with
  | nil => cases found
  | cons entry rest ih =>
    obtain ⟨known, stored⟩ := entry
    rw [lookup_cons_eq] at found
    rw [modifyEntry]
    by_cases same : known = key
    · rw [if_pos same.symm] at found
      cases found
      rw [if_pos same]
      exact .cons ⟨rfl, related⟩ (pointwise_refl (fun entry => ⟨rfl, refl entry.2⟩) rest)
    · rw [if_neg fun equal => same equal.symm] at found
      rw [if_neg same]
      exact .cons ⟨rfl, refl stored⟩ (ih found)

omit [DecidableEq Key] in
theorem DistinctKeys.related {R : Value → Value → Prop} {entries changed : List (Key × Value)}
    (distinct : DistinctKeys entries) (related : List.Forall₂ (RelatedEntries R) entries changed) :
    DistinctKeys changed := by
  have same : entries.map Prod.fst = changed.map Prod.fst := pointwise_map_eq (fun _ _ kept => kept.1.symm) related
  rwa [DistinctKeys, ← same]

theorem lookup_perm {entries arranged : List (Key × Value)} (distinct : DistinctKeys entries)
    (same : arranged.Perm entries) (key : Key) : arranged.lookup key = entries.lookup key := by
  apply Option.ext
  intro value
  rw [← mem_iff_lookup distinct, ← mem_iff_lookup (distinct.perm same), same.mem_iff]

theorem lookup_mapValues {Other : Type} (convert : Value → Other) (entries : List (Key × Value)) (key : Key) :
    (entries.map fun entry => (entry.1, convert entry.2)).lookup key = (entries.lookup key).map convert := by
  induction entries with
  | nil => rfl
  | cons entry rest ih =>
    rw [List.map_cons, lookup_cons_eq, lookup_cons_eq, ih]
    split <;> rfl

/-- The value that is stored under a key, of several ones the first. -/
def valueOf (entries : List (Key × Value)) (key : Key) : Option Value := entries.lookup key

theorem mem_of_valueOf {entries : List (Key × Value)} (found : valueOf entries key = some value) :
    (key, value) ∈ entries := by
  obtain ⟨before, after, same, -⟩ := List.lookup_eq_some_iff.mp found
  rw [same]
  simp

/-- The last of the later entries counts, without one the first of the others. -/
def layered (original later : List (Key × Value)) (key : Key) : Option Value :=
  (valueOf later.reverse key).or (valueOf original key)

/-- Entries are added where their key is new. -/
def addEntries (added map : List (Key × Value)) : List (Key × Value) :=
  added.foldl (fun map entry => modifyEntry entry.1 entry.2 id map) map

/-- Entries are added, and replace what is stored under their key. -/
def setEntries (added map : List (Key × Value)) : List (Key × Value) :=
  added.foldl (fun map entry => modifyEntry entry.1 entry.2 (fun _ => entry.2) map) map

theorem addEntries_distinct {map : List (Key × Value)} (distinct : DistinctKeys map) (added : List (Key × Value)) :
    DistinctKeys (addEntries added map) := by
  induction added generalizing map with
  | nil => exact distinct
  | cons entry rest ih => exact ih (modifyEntry_distinct distinct)

theorem setEntries_distinct {map : List (Key × Value)} (distinct : DistinctKeys map) (added : List (Key × Value)) :
    DistinctKeys (setEntries added map) := by
  induction added generalizing map with
  | nil => exact distinct
  | cons entry rest ih => exact ih (modifyEntry_distinct distinct)

/-- What is stored wins, then the first of the added entries. -/
theorem lookup_addEntries (added map : List (Key × Value)) (key : Key) :
    (addEntries added map).lookup key = (map.lookup key).or (added.lookup key) := by
  induction added generalizing map with
  | nil => simp [addEntries]
  | cons entry rest ih =>
    have later : (addEntries (entry :: rest) map).lookup key =
        ((modifyEntry entry.1 entry.2 id map).lookup key).or (rest.lookup key) := ih _
    rw [later, lookup_modifyEntry, lookup_cons_eq]
    by_cases same : key = entry.1
    · subst same
      cases map.lookup entry.1 <;> simp
    · simp [same]

/-- The last of the added entries wins. -/
theorem lookup_setEntries (added map : List (Key × Value)) (key : Key) :
    (setEntries added map).lookup key = (added.reverse.lookup key).or (map.lookup key) := by
  induction added generalizing map with
  | nil => simp [setEntries]
  | cons entry rest ih =>
    have later : (setEntries (entry :: rest) map).lookup key =
        (rest.reverse.lookup key).or
          ((modifyEntry entry.1 entry.2 (fun _ => entry.2) map).lookup key) := ih _
    rw [later, lookup_modifyEntry, List.reverse_cons, List.lookup_append, lookup_cons_eq]
    by_cases same : key = entry.1
    · simp [same]
    · simp [same]

/-- Where later entries replace the earlier ones. -/
theorem valueOf_setEntries (original later : List (Key × Value)) (key : Key) :
    valueOf (setEntries later (addEntries original [])) key = layered original later key := by
  rw [valueOf, lookup_setEntries, lookup_addEntries]
  rfl

theorem layered_mapValues {Other : Type} (convert : Value → Other) (original later : List (Key × Value)) (key : Key) :
    layered (original.map fun entry => (entry.1, convert entry.2)) (later.map fun entry => (entry.1, convert entry.2))
      key = (layered original later key).map convert := by
  rw [layered, ← List.map_reverse, valueOf, valueOf, lookup_mapValues, lookup_mapValues, layered, valueOf, valueOf]
  cases later.reverse.lookup key <;> simp

end NpuDriver.Library
