import Mathlib.Order.Lattice
import Mathlib.Data.List.Perm.Basic

/-! Ordered maps as sorted lists of entries; the first entry of a key stays. -/

namespace NpuDriver.Library

variable {κ ν : Type} [LinearOrder κ]

/-- `std::map::emplace`: nothing happens when the key is present. -/
def emplace (key : κ) (value : ν) : List (κ × ν) → List (κ × ν)
  | [] => [(key, value)]
  | (first, held) :: rest =>
    if key < first then (key, value) :: (first, held) :: rest
    else if first < key then (first, held) :: emplace key value rest
    else (first, held) :: rest

def emplaceAll (entries : List (κ × ν)) : List (κ × ν) :=
  entries.foldl (fun map entry => emplace entry.1 entry.2 map) []

/-- The entries whose key is neither among the seen ones nor that of an earlier entry. -/
def firstEntries : List κ → List (κ × ν) → List (κ × ν)
  | _, [] => []
  | seen, entry :: rest =>
    if entry.1 ∈ seen then firstEntries seen rest else entry :: firstEntries (entry.1 :: seen) rest

def Ascending (map : List (κ × ν)) : Prop := map.Pairwise fun left right => left.1 < right.1

theorem mem_emplace {map : List (κ × ν)} (member : entry ∈ emplace key value map) :
    entry = (key, value) ∨ entry ∈ map := by
  induction map with
  | nil => exact .inl (List.mem_singleton.mp member)
  | cons first rest ih =>
    rw [emplace] at member
    split at member
    · exact List.mem_cons.mp member
    · split at member
      · rcases List.mem_cons.mp member with rfl | later
        · exact .inr (List.mem_cons_self ..)
        · exact (ih later).imp_right (List.mem_cons_of_mem _)
      · exact .inr member

theorem emplace_ascending {map : List (κ × ν)} (ascending : Ascending map) (key : κ) (value : ν) :
    Ascending (emplace key value map) := by
  induction map with
  | nil => exact List.pairwise_singleton ..
  | cons first rest ih =>
    obtain ⟨above, later⟩ := List.pairwise_cons.mp ascending
    rw [emplace]
    split
    · rename_i less
      refine List.pairwise_cons.mpr ⟨fun entry member => ?_, ascending⟩
      rcases List.mem_cons.mp member with rfl | behind
      · exact less
      · exact lt_trans less (above entry behind)
    · split
      · rename_i greater
        refine List.pairwise_cons.mpr ⟨fun entry member => ?_, ih later⟩
        rcases mem_emplace member with rfl | behind
        · exact greater
        · exact above entry behind
      · exact ascending

theorem emplace_of_mem {map : List (κ × ν)} (ascending : Ascending map) (present : key ∈ map.map Prod.fst)
    (value : ν) : emplace key value map = map := by
  induction map with
  | nil => cases present
  | cons first rest ih =>
    obtain ⟨above, later⟩ := List.pairwise_cons.mp ascending
    rw [emplace]
    rcases List.mem_cons.mp present with rfl | behind
    · rw [if_neg (lt_irrefl _), if_neg (lt_irrefl _)]
    · obtain ⟨entry, member, same⟩ := List.mem_map.mp behind
      have less : first.1 < key := same ▸ above entry member
      rw [if_neg (lt_asymm less), if_pos less, ih later behind]

theorem emplace_perm {map : List (κ × ν)} (absent : key ∉ map.map Prod.fst) (value : ν) :
    (emplace key value map).Perm ((key, value) :: map) := by
  induction map with
  | nil => exact .refl _
  | cons first rest ih =>
    rw [List.map_cons, List.mem_cons, not_or] at absent
    rw [emplace]
    split
    · exact .refl _
    · split
      · exact ((ih absent.2).cons _).trans (.swap ..)
      · rename_i notLess notGreater
        exact (absent.1 (le_antisymm (le_of_not_gt notGreater) (le_of_not_gt notLess))).elim

theorem firstEntries_congr {seen others : List κ} (same : ∀ key, key ∈ seen ↔ key ∈ others)
    (entries : List (κ × ν)) : firstEntries seen entries = firstEntries others entries := by
  induction entries generalizing seen others with
  | nil => rfl
  | cons entry rest ih =>
    rw [firstEntries, firstEntries]
    by_cases known : entry.1 ∈ seen
    · rw [if_pos known, if_pos ((same _).mp known), ih same]
    · rw [if_neg known, if_neg (fun other => known ((same _).mpr other))]
      have grown : ∀ key, key ∈ entry.1 :: seen ↔ key ∈ entry.1 :: others := by
        intro key
        rw [List.mem_cons, List.mem_cons, same]
      rw [ih grown]

/-- Emplacing keeps the map sorted and adds the first entry of every new key. -/
theorem emplaceAll_spec (entries : List (κ × ν)) :
    Ascending (emplaceAll entries) ∧ (emplaceAll entries).Perm (firstEntries [] entries) := by
  have general : ∀ map : List (κ × ν), Ascending map →
      Ascending (entries.foldl (fun map entry => emplace entry.1 entry.2 map) map) ∧
        (entries.foldl (fun map entry => emplace entry.1 entry.2 map) map).Perm
          (map ++ firstEntries (map.map Prod.fst) entries) := by
    induction entries with
    | nil => exact fun map ascending => ⟨ascending, by simp [firstEntries]⟩
    | cons entry rest ih =>
      intro map ascending
      rw [List.foldl_cons, firstEntries]
      by_cases known : entry.1 ∈ map.map Prod.fst
      · rw [emplace_of_mem ascending known, if_pos known]
        exact ih map ascending
      · rw [if_neg known]
        obtain ⟨sorted, perm⟩ := ih _ (emplace_ascending ascending entry.1 entry.2)
        have moved := emplace_perm known entry.2
        have keys : ∀ key, key ∈ (emplace entry.1 entry.2 map).map Prod.fst ↔
            key ∈ entry.1 :: map.map Prod.fst := fun key => (moved.map Prod.fst).mem_iff
        rw [firstEntries_congr keys] at perm
        exact ⟨sorted, (perm.trans (moved.append_right _)).trans List.perm_middle.symm⟩
  simpa [emplaceAll] using general [] .nil

/-- `std::map::lower_bound` together with the order of the keys: nothing in front of the entry found
satisfies the test. -/
theorem find_least {map : List (κ × ν)} (ascending : Ascending map) {test : κ × ν → Bool}
    (found : map.find? test = some first) :
    first ∈ map ∧ test first = true ∧ ∀ entry ∈ map, test entry = true → entry = first ∨ first.1 < entry.1 := by
  induction map with
  | nil => cases found
  | cons head rest ih =>
    obtain ⟨above, later⟩ := List.pairwise_cons.mp ascending
    by_cases passes : test head = true
    · rw [List.find?_cons_of_pos passes] at found
      cases found
      refine ⟨List.mem_cons_self, passes, fun entry member _ => ?_⟩
      rcases List.mem_cons.mp member with same | behind
      · exact .inl same
      · exact .inr (above entry behind)
    · rw [List.find?_cons_of_neg passes] at found
      obtain ⟨member, holds, least⟩ := ih later found
      refine ⟨List.mem_cons_of_mem _ member, holds, fun entry inside tested => ?_⟩
      rcases List.mem_cons.mp inside with rfl | behind
      · exact (passes tested).elim
      · exact least entry behind tested

theorem mem_emplace_iff {map : List (κ × ν)} (absent : key ∉ map.map Prod.fst) (value : ν) :
    entry ∈ emplace key value map ↔ entry = (key, value) ∨ entry ∈ map := by
  rw [(emplace_perm absent value).mem_iff, List.mem_cons]

/-- A search that no smaller key satisfies finds a new entry. -/
theorem find_emplace {map : List (κ × ν)} {test : κ × ν → Bool} (absent : key ∉ map.map Prod.fst)
    (passes : test (key, value) = true) (before : ∀ entry ∈ map, entry.1 < key → test entry = false) :
    (emplace key value map).find? test = some (key, value) := by
  induction map with
  | nil => exact List.find?_cons_of_pos passes
  | cons first rest ih =>
    rw [List.map_cons, List.mem_cons, not_or] at absent
    rw [emplace]
    split
    · exact List.find?_cons_of_pos passes
    · split
      · rename_i greater
        have fails := before first List.mem_cons_self greater
        rw [List.find?_cons_of_neg (by simp [fails])]
        exact ih absent.2 fun entry member => before entry (List.mem_cons_of_mem _ member)
      · rename_i notLess notGreater
        exact (absent.1 (le_antisymm (le_of_not_gt notGreater) (le_of_not_gt notLess))).elim

/-- `std::map::erase`. -/
def eraseKey (key : κ) (map : List (κ × ν)) : List (κ × ν) := map.filter fun entry => entry.1 ≠ key

theorem mem_eraseKey {map : List (κ × ν)} : entry ∈ eraseKey key map ↔ entry ∈ map ∧ entry.1 ≠ key := by
  rw [eraseKey, List.mem_filter, decide_eq_true_eq]

theorem eraseKey_ascending {map : List (κ × ν)} (ascending : Ascending map) (key : κ) :
    Ascending (eraseKey key map) := List.Pairwise.filter _ ascending

/-- Erasing another key does not change what a search finds. -/
theorem find_eraseKey {map : List (κ × ν)} {test : κ × ν → Bool}
    (found : map.find? test = some first) (other : first.1 ≠ key) :
    (eraseKey key map).find? test = some first := by
  induction map with
  | nil => cases found
  | cons head rest ih =>
    rw [eraseKey]
    by_cases passes : test head = true
    · rw [List.find?_cons_of_pos passes] at found
      cases found
      rw [List.filter_cons_of_pos (by simpa using other), List.find?_cons_of_pos passes]
    · rw [List.find?_cons_of_neg passes] at found
      by_cases erased : head.1 = key
      · rw [List.filter_cons_of_neg (by simpa using erased)]
        exact ih found
      · rw [List.filter_cons_of_pos (by simpa using erased), List.find?_cons_of_neg passes]
        exact ih found

end NpuDriver.Library
