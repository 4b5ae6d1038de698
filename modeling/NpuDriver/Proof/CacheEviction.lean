import NpuDriver.Cache.DiskCache

/-! What the eviction of least recently used files frees. -/

namespace NpuDriver

open Library

/-- Opening for eviction and removal by the path both succeed. -/
def CacheFile.removable (file : CacheFile) : Bool :=
  file.opens && file.lockedBy = none && file.removes

/-- The files that no file scanned before them shares the access second with. -/
def firstOfSecond : List Int → List CacheFile → List CacheFile
  | _, [] => []
  | seen, file :: rest =>
    if file.accessTime ∈ seen then firstOfSecond seen rest
    else file :: firstOfSecond (file.accessTime :: seen) rest

def sizeOf (files : List CacheFile) : Nat := (files.map CacheFile.size).sum

namespace CacheDirectory

def totalSize (dir : CacheDirectory) : Nat := sizeOf dir.files

def removableSize (dir : CacheDirectory) : Nat := sizeOf (dir.files.filter CacheFile.removable)

/-- The removable files that the map of access times keeps. -/
def evictable (dir : CacheDirectory) : List CacheFile :=
  (firstOfSecond [] dir.files).filter CacheFile.removable

def evictableSize (dir : CacheDirectory) : Nat := sizeOf dir.evictable

theorem find_of_mem {dir : CacheDirectory} (member : file ∈ dir.files) : dir.find file.name = some file := by
  have general : ∀ files : List CacheFile, (files.map CacheFile.name).Nodup → file ∈ files →
      files.find? (fun other => other.name = file.name) = some file := by
    intro files distinct
    induction files with
    | nil => exact nofun
    | cons first rest ih =>
      intro present
      obtain ⟨fresh, others⟩ := List.nodup_cons.mp distinct
      rcases List.mem_cons.mp present with rfl | later
      · exact List.find?_cons_of_pos (by simp)
      · have different : first.name ≠ file.name := by
          intro same
          exact fresh (List.mem_map.mpr ⟨file, later, same.symm⟩)
        rw [List.find?_cons_of_neg (by simpa using different)]
        exact ih others later
  exact general dir.files dir.distinct member

theorem mem_of_find {dir : CacheDirectory} (found : dir.find name = some file) :
    file ∈ dir.files ∧ file.name = name :=
  ⟨List.mem_of_find?_eq_some found, by simpa using List.find?_some found⟩

theorem find_erase_other {dir : CacheDirectory} (other : name ≠ key) :
    (dir.erase key).find name = dir.find name := by
  have general : ∀ files : List CacheFile,
      (files.filter fun file => file.name ≠ key).find? (fun file => file.name = name) =
        files.find? fun file => file.name = name := by
    intro files
    induction files with
    | nil => rfl
    | cons first rest ih =>
      by_cases erased : first.name = key
      · rw [List.filter_cons_of_neg (by simpa using erased), ih, List.find?_cons_of_neg]
        rw [erased]
        simpa using Ne.symm other
      · rw [List.filter_cons_of_pos (by simpa using erased)]
        by_cases hit : first.name = name
        · rw [List.find?_cons_of_pos (by simpa using hit), List.find?_cons_of_pos (by simpa using hit)]
        · rw [List.find?_cons_of_neg (by simpa using hit), List.find?_cons_of_neg (by simpa using hit), ih]
  exact general dir.files

theorem find_erase_same (dir : CacheDirectory) (key : String) : (dir.erase key).find key = none := by
  simp only [find, erase]
  rw [List.find?_eq_none]
  intro file member same
  obtain ⟨-, different⟩ := List.mem_filter.mp member
  exact absurd (of_decide_eq_true same) (of_decide_eq_true different)

/-- Erasing a file takes its size off the total. -/
theorem totalSize_erase {dir : CacheDirectory} (member : file ∈ dir.files) :
    (dir.erase file.name).totalSize + file.size = dir.totalSize := by
  have general : ∀ files : List CacheFile, (files.map CacheFile.name).Nodup → file ∈ files →
      sizeOf (files.filter fun other => other.name ≠ file.name) + file.size = sizeOf files := by
    intro files distinct
    induction files with
    | nil => exact nofun
    | cons first rest ih =>
      intro present
      obtain ⟨fresh, others⟩ := List.nodup_cons.mp distinct
      rcases List.mem_cons.mp present with rfl | later
      · have kept : rest.filter (fun other => other.name ≠ file.name) = rest := by
          rw [List.filter_eq_self]
          intro other member
          have different : other.name ≠ file.name := fun same =>
            fresh (List.mem_map.mpr ⟨other, member, same⟩)
          simpa using different
        rw [List.filter_cons_of_neg (by simp), kept]
        simp only [sizeOf, List.map_cons, List.sum_cons]
        omega
      · have different : first.name ≠ file.name := by
          intro same
          exact fresh (List.mem_map.mpr ⟨file, later, same.symm⟩)
        have tail := ih others later
        rw [List.filter_cons_of_pos (by simpa using different)]
        simp only [sizeOf, List.map_cons, List.sum_cons] at tail ⊢
        omega
  exact general dir.files dir.distinct member

end CacheDirectory

namespace DiskCache

/-- What the eviction takes from the file of an entry. -/
def removableAt (dir : CacheDirectory) (name : String) : Nat :=
  match dir.find name with
  | none => 0
  | some file => if file.removable then file.size else 0

def isRemovableAt (dir : CacheDirectory) (name : String) : Prop :=
  ∃ file, dir.find name = some file ∧ file.removable = true

theorem removableAt_of_not {dir : CacheDirectory} (kept : ¬ isRemovableAt dir name) :
    removableAt dir name = 0 := by
  cases found : dir.find name with
  | none => simp [removableAt, found]
  | some file =>
    have fixed : file.removable = false := by
      by_contra can
      exact kept ⟨file, found, by simpa using can⟩
    simp [removableAt, found, fixed]

theorem removeFiles_skip {expSize : Nat} {eviction : Eviction} (kept : ¬ isRemovableAt eviction.dir filename) :
    removeFiles expSize ((timestamp, filename) :: rest) eviction = removeFiles expSize rest eviction := by
  rw [removeFiles]
  simp only [CacheDirectory.openWithExclusiveLock, CacheDirectory.osiFileRemove]
  cases found : eviction.dir.find filename with
  | none => rfl
  | some file =>
    by_cases opens : (file.opens && decide (file.lockedBy = none)) = true
    · by_cases removes : file.removes = true
      · refine (kept ⟨file, found, ?_⟩).elim
        simpa [CacheFile.removable, removes] using opens
      · simp [opens, removes]
    · simp [opens]

theorem removeFiles_take {expSize : Nat} {eviction : Eviction} {file : CacheFile}
    (found : eviction.dir.find filename = some file) (removable : file.removable = true)
    (narrow : eviction.removedSize + file.size < 2 ^ 64) :
    removeFiles expSize ((timestamp, filename) :: rest) eviction =
      if expSize ≤ eviction.removedSize + file.size then
        ⟨eviction.removedSize + file.size, eviction.removed ++ [⟨filename, timestamp, file.size⟩],
          eviction.dir.erase filename⟩
      else
        removeFiles expSize rest
          ⟨eviction.removedSize + file.size, eviction.removed ++ [⟨filename, timestamp, file.size⟩],
            eviction.dir.erase filename⟩ := by
  simp only [CacheFile.removable, Bool.and_eq_true] at removable
  obtain ⟨⟨opens, unlocked⟩, removes⟩ := removable
  rw [removeFiles]
  simp only [CacheDirectory.openWithExclusiveLock, CacheDirectory.osiFileRemove, found, opens, unlocked,
    removes, Bool.and_self, ↓reduceIte, Nat.mod_eq_of_lt narrow, ge_iff_le]

/-- What the removal of the files of a list does. -/
structure Evicted (expSize : Nat) (entries : List (Int × String)) (before after : Eviction) : Prop where
  total : after.dir.totalSize + after.removedSize = before.dir.totalSize + before.removedSize
  log : ∃ removed, after.removed = before.removed ++ removed ∧
    (removed.map fun file => (file.lastAccess, file.filename)).Sublist entries
  upper : after.removedSize ≤
    before.removedSize + (entries.map fun entry => removableAt before.dir entry.2).sum
  outcome : expSize ≤ after.removedSize ∨
    (after.removedSize = before.removedSize + (entries.map fun entry => removableAt before.dir entry.2).sum ∧
      ∀ name, after.dir.find name = none ↔ before.dir.find name = none ∨
        name ∈ entries.map Prod.snd ∧ isRemovableAt before.dir name)

theorem Evicted.nothing (expSize : Nat) (eviction : Eviction) : Evicted expSize [] eviction eviction where
  total := rfl
  log := ⟨[], (List.append_nil _).symm, .slnil⟩
  upper := Nat.le_refl _
  outcome := .inr ⟨rfl, by simp⟩

theorem Evicted.skip {expSize : Nat} {before after : Eviction} (kept : ¬ isRemovableAt before.dir filename)
    (rest : Evicted expSize entries before after) :
    Evicted expSize ((timestamp, filename) :: entries) before after := by
  have nothing := removableAt_of_not kept
  obtain ⟨total, ⟨removed, log, order⟩, upper, outcome⟩ := rest
  refine ⟨total, ⟨removed, log, order.cons _⟩, by simpa [nothing] using upper, outcome.imp_right ?_⟩
  rintro ⟨sum, gone⟩
  refine ⟨by simpa [nothing] using sum, fun name => ?_⟩
  rw [gone, List.map_cons, List.mem_cons]
  constructor
  · exact Or.imp_right fun inside => ⟨.inr inside.1, inside.2⟩
  · rintro (absent | ⟨rfl | inside, removable⟩)
    · exact .inl absent
    · exact (kept removable).elim
    · exact .inr ⟨inside, removable⟩

theorem removeFiles_evicted (expSize : Nat) {entries : List (Int × String)}
    (distinct : (entries.map Prod.snd).Nodup) (eviction : Eviction)
    (narrow : eviction.dir.totalSize + eviction.removedSize < 2 ^ 64) :
    Evicted expSize entries eviction (removeFiles expSize entries eviction) := by
  induction entries generalizing eviction with
  | nil => exact .nothing expSize eviction
  | cons entry rest ih =>
    obtain ⟨timestamp, filename⟩ := entry
    obtain ⟨fresh, others⟩ := List.nodup_cons.mp distinct
    by_cases removable : isRemovableAt eviction.dir filename
    · obtain ⟨file, found, can⟩ := removable
      obtain ⟨member, rfl⟩ := CacheDirectory.mem_of_find found
      have size := CacheDirectory.totalSize_erase member
      have taken : removableAt eviction.dir file.name = file.size := by
        simp [removableAt, found, can]
      rw [removeFiles_take found can (by omega)]
      split
      · rename_i enough
        refine ⟨?_, ⟨[_], rfl, ?_⟩, ?_, .inl enough⟩
        · simp only
          omega
        · exact (List.nil_sublist _).cons_cons _
        · simp only [List.map_cons, List.sum_cons, taken]
          omega
      · rename_i missing
        have unchanged : ∀ name ∈ rest.map Prod.snd,
            (eviction.dir.erase file.name).find name = eviction.dir.find name := by
          intro name inside
          refine CacheDirectory.find_erase_other fun same => fresh ?_
          exact same ▸ inside
        have sums : rest.map (fun entry => removableAt (eviction.dir.erase file.name) entry.2) =
            rest.map fun entry => removableAt eviction.dir entry.2 := by
          refine List.map_congr_left fun entry inside => ?_
          rw [removableAt, removableAt, unchanged entry.2 (List.mem_map_of_mem inside)]
        obtain ⟨total, ⟨removed, log, order⟩, upper, outcome⟩ := ih others
          ⟨eviction.removedSize + file.size, eviction.removed ++ [⟨file.name, timestamp, file.size⟩],
            eviction.dir.erase file.name⟩ (by simp only; omega)
        simp only [sums] at total log upper outcome
        refine ⟨by omega, ⟨⟨file.name, timestamp, file.size⟩ :: removed, ?_, order.cons_cons _⟩, ?_,
          outcome.imp_right ?_⟩
        · rw [log, List.append_assoc]
          rfl
        · simp only [List.map_cons, List.sum_cons, taken]
          omega
        · rintro ⟨sum, gone⟩
          refine ⟨by simp only [List.map_cons, List.sum_cons, taken]; omega, fun name => ?_⟩
          rw [gone, List.map_cons, List.mem_cons]
          by_cases same : name = file.name
          · subst same
            exact iff_of_true (.inl (CacheDirectory.find_erase_same _ _)) (.inr ⟨.inl rfl, file, found, can⟩)
          · rw [CacheDirectory.find_erase_other same]
            refine or_congr_right (and_congr ?_ ?_)
            · exact ⟨.inr, fun inside => inside.resolve_left same⟩
            · simp only [isRemovableAt, CacheDirectory.find_erase_other same]
    · rw [removeFiles_skip removable]
      exact (ih others eviction narrow).skip removable

theorem firstEntries_files (seen : List Int) (files : List CacheFile) :
    firstEntries seen (files.map fun file => (file.accessTime, file.name)) =
      (firstOfSecond seen files).map fun file => (file.accessTime, file.name) := by
  induction files generalizing seen with
  | nil => rfl
  | cons file rest ih =>
    rw [List.map_cons, firstEntries, firstOfSecond]
    by_cases known : file.accessTime ∈ seen
    · rw [if_pos known, if_pos known, ih]
    · rw [if_neg known, if_neg known, List.map_cons, ih]

theorem firstOfSecond_sublist (seen : List Int) (files : List CacheFile) :
    (firstOfSecond seen files).Sublist files := by
  induction files generalizing seen with
  | nil => exact .slnil
  | cons file rest ih =>
    rw [firstOfSecond]
    split
    · exact (ih seen).cons _
    · exact (ih _).cons_cons _

theorem sizeOf_filter (dir : CacheDirectory) {files : List CacheFile} (inside : files ⊆ dir.files) :
    (files.map fun file => removableAt dir file.name).sum = sizeOf (files.filter CacheFile.removable) := by
  induction files with
  | nil => rfl
  | cons file rest ih =>
    obtain ⟨present, others⟩ := List.cons_subset.mp inside
    have found := CacheDirectory.find_of_mem present
    rw [List.map_cons, List.sum_cons, ih others, removableAt, found]
    by_cases can : file.removable = true
    · simp [can, sizeOf]
    · simp [can, sizeOf]

/-- The entries of the map and the files that it keeps. -/
theorem sortedFiles_spec (dir : CacheDirectory) :
    Ascending (sortedFiles dir) ∧ ((sortedFiles dir).map Prod.snd).Nodup ∧
      ((sortedFiles dir).map fun entry => removableAt dir entry.2).sum = dir.evictableSize ∧
      ∀ name, name ∈ (sortedFiles dir).map Prod.snd ↔ ∃ file ∈ firstOfSecond [] dir.files, file.name = name := by
  obtain ⟨ascending, perm⟩ := emplaceAll_spec (dir.files.map fun file => (file.accessTime, file.name))
  rw [firstEntries_files] at perm
  change (sortedFiles dir).Perm _ at perm
  have kept := firstOfSecond_sublist [] dir.files
  refine ⟨ascending, ?_, ?_, fun name => ?_⟩
  · refine (perm.map Prod.snd).nodup_iff.mpr ?_
    rw [List.map_map]
    exact (kept.map CacheFile.name).nodup dir.distinct
  · rw [(perm.map fun entry => removableAt dir entry.2).sum_nat, List.map_map]
    exact sizeOf_filter dir kept.subset
  · rw [(perm.map Prod.snd).mem_iff, List.map_map, List.mem_map]
    rfl

end DiskCache

end NpuDriver
