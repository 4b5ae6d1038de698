import NpuDriver.Proof.CacheEviction

/-! The size of the disk cache after a blob is set. -/

namespace NpuDriver

open Library
open HashCity (DigestLength getDigest)

namespace DiskCache

variable {cache : DiskCache} {answers : WriteAnswers} {dir : CacheDirectory} {key : String} {blob : List UInt8}

/-- The bound of the cache: its size stays below the maximum, a file is only created where there is
room for it, and the eviction frees what it is asked for and can be had, least recent files first. -/
structure CacheBound (cache : DiskCache) (answers : WriteAnswers) (dir : CacheDirectory) (key : String)
    (blob : List UInt8) : Prop where
  bounded : getCacheSize (cache.setBlob answers dir key (some blob)).dir ≤ cache.maxSize
  room : ∀ created, (cache.setBlob answers dir key (some blob)).createdIn = some created →
    getCacheSize created + (blob.length + DigestLength) ≤ cache.maxSize
  frees : ∀ bytes ≤ dir.removableSize,
    getCacheSize (removeLeastUsedFiles dir bytes).dir + bytes ≤ getCacheSize dir
  ordered : ∀ bytes, (removeLeastUsedFiles dir bytes).removed.Pairwise fun first second =>
    first.lastAccess < second.lastAccess

/-- The blob is not stored anyway, or the files that the eviction can remove make room for it. -/
def RoomFor (cache : DiskCache) (answers : WriteAnswers) (dir : CacheDirectory) (key : String)
    (blob : List UInt8) : Prop :=
  cache.enabled = false ∨ cache.maxSize < blob.length + DigestLength ∨ answers.creates = false ∨
    (∃ file ∈ dir.files, file.name = key ∧ file ∉ dir.evictable) ∨
    dir.totalSize + (blob.length + DigestLength) ≤ cache.maxSize + dir.evictableSize

/-- The removable files that share their access second with a file scanned before them hold no
bytes. -/
def NoneHidden (dir : CacheDirectory) : Prop := dir.removableSize ≤ dir.evictableSize

instance : Decidable (RoomFor cache answers dir key blob) :=
  inferInstanceAs (Decidable (_ ∨ _ ∨ _ ∨ _ ∨ _))

instance : Decidable (NoneHidden dir) := inferInstanceAs (Decidable (_ ≤ _))

theorem getCacheSize_eq (narrow : dir.totalSize < 2 ^ 64) : getCacheSize dir = dir.totalSize :=
  Nat.mod_eq_of_lt narrow

theorem evicted (narrow : dir.totalSize < 2 ^ 64) (expSize : Nat) :
    Evicted expSize (sortedFiles dir) ⟨0, [], dir⟩ (removeLeastUsedFiles dir expSize) :=
  removeFiles_evicted expSize (sortedFiles_spec dir).2.1 ⟨0, [], dir⟩ narrow

theorem sizeOf_filter_le (keeps : CacheFile → Bool) (files : List CacheFile) :
    sizeOf (files.filter keeps) ≤ sizeOf files := by
  induction files with
  | nil => exact Nat.le_refl _
  | cons file rest ih =>
    by_cases kept : keeps file = true
    · rw [List.filter_cons_of_pos kept]
      simp only [sizeOf, List.map_cons, List.sum_cons] at ih ⊢
      omega
    · rw [List.filter_cons_of_neg kept]
      simp only [sizeOf, List.map_cons, List.sum_cons] at ih ⊢
      omega

theorem osiFileRemove_le (dir : CacheDirectory) (name : String) :
    (dir.osiFileRemove name).2.totalSize ≤ dir.totalSize := by
  rw [CacheDirectory.osiFileRemove]
  split
  · exact Nat.le_refl _
  · split
    · exact sizeOf_filter_le _ _
    · exact Nat.le_refl _

theorem getBlob_le (cache : DiskCache) (maps : Bool) (dir : CacheDirectory) (key : String) :
    (cache.getBlob maps dir key).2.totalSize ≤ dir.totalSize := by
  rw [getBlob]
  split
  · exact Nat.le_refl _
  · split
    · exact Nat.le_refl _
    · split
      · exact Nat.le_refl _
      · split
        · exact osiFileRemove_le dir key
        · exact Nat.le_refl _

theorem writeBlob_length (cache : DiskCache) (answers : WriteAnswers) (blob : List UInt8) :
    (cache.writeBlob answers blob).2.length ≤ blob.length + DigestLength := by
  obtain ⟨front, -⟩ := OsFile.write_stored answers.writeBlob blob
  obtain ⟨sumFront, -⟩ := OsFile.write_stored answers.writeSum (getDigest cache.hash blob)
  have first := front.length_le
  have second := sumFront.length_le
  rw [HashCity.getDigest_length] at second
  rw [writeBlob]
  split
  · rename_i stored written
    rw [written] at first
    exact Nat.le_trans first (Nat.le_add_right _ _)
  · rename_i stored written
    rw [written] at first
    simp only [List.length_append]
    exact Nat.add_le_add first second

theorem create_total {written : CacheDirectory} (created : dir.create file = some written) :
    written.totalSize = dir.totalSize + file.size := by
  rw [CacheDirectory.create] at created
  split at created
  · cases created
  · cases created
    simp [CacheDirectory.totalSize, sizeOf]

theorem create_none : dir.create file = none ↔ dir.find file.name ≠ none := by
  rw [CacheDirectory.create]
  split
  · rename_i taken
    obtain ⟨other, member, same⟩ := List.mem_map.mp taken
    refine iff_of_true rfl ?_
    rw [← same, CacheDirectory.find_of_mem member]
    exact Option.some_ne_none other
  · rename_i free
    refine iff_of_false (Option.some_ne_none _) (not_not.mpr ?_)
    cases found : dir.find file.name with
    | none => rfl
    | some other =>
      obtain ⟨member, same⟩ := CacheDirectory.mem_of_find found
      exact (free (List.mem_map.mpr ⟨other, member, same⟩)).elim

/-- A blob is stored in the given directory or not at all, and takes no more than its size and that of
its digest. -/
theorem storeBlob_size (cache : DiskCache) (answers : WriteAnswers) (dir : CacheDirectory) (key : String)
    (blob : List UInt8) :
    ((cache.storeBlob answers dir key blob).createdIn = none ∧
        (cache.storeBlob answers dir key blob).dir = dir ∧
        (answers.creates = false ∨ dir.find key ≠ none)) ∨
      ((cache.storeBlob answers dir key blob).createdIn = some dir ∧ answers.creates = true ∧
        dir.find key = none ∧
        (cache.storeBlob answers dir key blob).dir.totalSize ≤
          dir.totalSize + (blob.length + DigestLength)) := by
  rw [storeBlob]
  cases creates : answers.creates with
  | false => exact .inl ⟨rfl, rfl, .inl rfl⟩
  | true =>
    have length := writeBlob_length cache answers blob
    generalize cache.writeBlob answers blob = outcome at length ⊢
    obtain ⟨success, content⟩ := outcome
    simp only [Bool.not_true, Bool.false_eq_true, ↓reduceIte] at length ⊢
    cases created : dir.create ⟨key, content, answers.accessTime, true, answers.removes, none⟩ with
    | none => exact .inl ⟨rfl, rfl, .inr (create_none.mp created)⟩
    | some written =>
      have total := create_total created
      have free : dir.find key = none := by
        by_contra taken
        rw [create_none.mpr taken] at created
        cases created
      simp only [CacheFile.size] at total
      cases success with
      | false =>
        have removal := osiFileRemove_le written key
        refine .inr ⟨rfl, trivial, free, ?_⟩
        simp only [Bool.not_false, ↓reduceIte]
        omega
      | true =>
        have lookup := getBlob_le cache answers.maps written key
        simp only [Bool.not_true, Bool.false_eq_true, ↓reduceIte]
        split
        · rename_i newBlob final read
          rw [read] at lookup
          exact .inr ⟨rfl, trivial, free, by simp only at lookup ⊢; omega⟩
        · rename_i other final missed read
          rw [read] at lookup
          exact .inr ⟨rfl, trivial, free, by simp only at lookup ⊢; omega⟩

/-- A name is taken by a file that the eviction does not remove. -/
theorem taken_iff : (∃ file ∈ dir.files, file.name = key ∧ file ∉ dir.evictable) ↔
    ¬ (dir.find key = none ∨ key ∈ (sortedFiles dir).map Prod.snd ∧ isRemovableAt dir key) := by
  constructor
  · rintro ⟨file, member, rfl, stays⟩ gone
    have found := CacheDirectory.find_of_mem member
    rcases gone with absent | ⟨kept, other, same, removable⟩
    · rw [found] at absent
      cases absent
    · obtain ⟨first, inside, name⟩ := ((sortedFiles_spec dir).2.2.2 file.name).mp kept
      have known := CacheDirectory.find_of_mem ((firstOfSecond_sublist [] dir.files).subset inside)
      rw [name, found] at known
      rw [found] at same
      cases known
      cases same
      exact stays (List.mem_filter.mpr ⟨inside, removable⟩)
  · intro present
    obtain ⟨exists', stays⟩ := not_or.mp present
    obtain ⟨file, found⟩ := Option.ne_none_iff_exists'.mp exists'
    obtain ⟨member, rfl⟩ := CacheDirectory.mem_of_find found
    refine ⟨file, member, rfl, fun evictable => stays ?_⟩
    obtain ⟨kept, removable⟩ := List.mem_filter.mp evictable
    exact ⟨((sortedFiles_spec dir).2.2.2 _).mpr ⟨file, kept, rfl⟩, file, found, removable⟩

/-- What the eviction frees reaches every amount that can be had exactly when nothing is hidden. -/
theorem frees_iff (narrow : dir.totalSize < 2 ^ 64) :
    (∀ bytes ≤ dir.removableSize,
      getCacheSize (removeLeastUsedFiles dir bytes).dir + bytes ≤ getCacheSize dir) ↔ NoneHidden dir := by
  have totals : ∀ bytes, getCacheSize (removeLeastUsedFiles dir bytes).dir +
      (removeLeastUsedFiles dir bytes).removedSize = getCacheSize dir := by
    intro bytes
    have total := (evicted narrow bytes).total
    simp only [Nat.add_zero] at total
    rw [getCacheSize_eq narrow, getCacheSize_eq (by omega), total]
  constructor
  · intro frees
    have freed := frees _ (Nat.le_refl _)
    have total := totals dir.removableSize
    have upper := (evicted narrow dir.removableSize).upper
    rw [(sortedFiles_spec dir).2.2.1, Nat.zero_add] at upper
    simp only [NoneHidden]
    omega
  · intro none bytes asked
    have total := totals bytes
    rcases (evicted narrow bytes).outcome with enough | ⟨all, -⟩
    · omega
    · rw [(sortedFiles_spec dir).2.2.1, Nat.zero_add] at all
      simp only [NoneHidden] at none
      omega

theorem removed_ascending (narrow : dir.totalSize < 2 ^ 64) (bytes : Nat) :
    (removeLeastUsedFiles dir bytes).removed.Pairwise fun first second =>
      first.lastAccess < second.lastAccess := by
  obtain ⟨removed, log, order⟩ := (evicted narrow bytes).log
  rw [log, List.nil_append]
  have ascending : (removed.map fun file => (file.lastAccess, file.filename)).Pairwise fun left right =>
      left.1 < right.1 := List.Pairwise.sublist order (sortedFiles_spec dir).1
  rw [List.pairwise_map] at ascending
  exact ascending

/-- `setBlob` without its 64-bit arithmetic. -/
theorem setBlob_eq (narrow : dir.totalSize + (blob.length + DigestLength) < 2 ^ 64)
    (enabled : cache.enabled = true) :
    cache.setBlob answers dir key (some blob) =
      if cache.maxSize < blob.length + DigestLength then ⟨some blob, none, dir, false⟩
      else if cache.maxSize < dir.totalSize + (blob.length + DigestLength) then
        cache.storeBlob answers
          (removeLeastUsedFiles dir (dir.totalSize + (blob.length + DigestLength) - cache.maxSize)).dir key blob
      else cache.storeBlob answers dir key blob := by
  have size := getCacheSize_eq (Nat.lt_of_le_of_lt (Nat.le_add_right _ _) narrow)
  have blobSize : (blob.length + DigestLength) % 2 ^ 64 = blob.length + DigestLength :=
    Nat.mod_eq_of_lt (Nat.lt_of_le_of_lt (Nat.le_add_left _ _) narrow)
  simp only [setBlob, enabled, Bool.not_true, Bool.false_eq_true, ↓reduceIte, blobSize, size,
    Nat.mod_eq_of_lt narrow, gt_iff_lt]

/-- A directory that has room for the blob keeps the bound. -/
theorem storeBlob_bounded (room : dir.totalSize + (blob.length + DigestLength) ≤ cache.maxSize)
    (narrow : dir.totalSize + (blob.length + DigestLength) < 2 ^ 64) :
    getCacheSize (cache.storeBlob answers dir key blob).dir ≤ cache.maxSize ∧
      ∀ created, (cache.storeBlob answers dir key blob).createdIn = some created →
        getCacheSize created + (blob.length + DigestLength) ≤ cache.maxSize := by
  have size := getCacheSize_eq (Nat.lt_of_le_of_lt (Nat.le_add_right _ _) narrow)
  rcases storeBlob_size cache answers dir key blob with ⟨none, same, -⟩ | ⟨some, -, -, total⟩
  · rw [none, same, size]
    exact ⟨by omega, nofun⟩
  · rw [some, getCacheSize_eq (by omega)]
    refine ⟨by omega, ?_⟩
    rintro _ ⟨⟩
    rw [size]
    exact room

/-- The part of the bound that concerns the blob. -/
theorem room_iff (narrow : dir.totalSize + (blob.length + DigestLength) < 2 ^ 64)
    (bounded : dir.totalSize ≤ cache.maxSize) :
    (getCacheSize (cache.setBlob answers dir key (some blob)).dir ≤ cache.maxSize ∧
      ∀ created, (cache.setBlob answers dir key (some blob)).createdIn = some created →
        getCacheSize created + (blob.length + DigestLength) ≤ cache.maxSize) ↔
      RoomFor cache answers dir key blob := by
  have smaller : dir.totalSize < 2 ^ 64 := Nat.lt_of_le_of_lt (Nat.le_add_right _ _) narrow
  have size := getCacheSize_eq smaller
  cases enabled : cache.enabled with
  | false =>
    have same : cache.setBlob answers dir key (some blob) = ⟨some blob, none, dir, false⟩ := by
      simp only [setBlob, enabled, Bool.not_false, ↓reduceIte]
    rw [same, size]
    exact iff_of_true ⟨bounded, nofun⟩ (.inl enabled)
  | true =>
    rw [setBlob_eq narrow enabled]
    by_cases large : cache.maxSize < blob.length + DigestLength
    · rw [if_pos large, size]
      exact iff_of_true ⟨bounded, nofun⟩ (.inr (.inl large))
    · rw [if_neg large]
      by_cases full : cache.maxSize < dir.totalSize + (blob.length + DigestLength)
      · rw [if_pos full]
        obtain ⟨total, -, upper, outcome⟩ :=
          evicted smaller (dir.totalSize + (blob.length + DigestLength) - cache.maxSize)
        generalize removeLeastUsedFiles dir (dir.totalSize + (blob.length + DigestLength) - cache.maxSize) =
          eviction at total upper outcome ⊢
        rw [(sortedFiles_spec dir).2.2.1, Nat.zero_add] at upper outcome
        simp only [Nat.add_zero] at total outcome
        rcases outcome with enough | ⟨all, gone⟩
        · exact iff_of_true (storeBlob_bounded (by omega) (by omega))
            (.inr (.inr (.inr (.inr (by omega)))))
        · by_cases room : dir.totalSize + (blob.length + DigestLength) ≤ cache.maxSize + dir.evictableSize
          · exact iff_of_true (storeBlob_bounded (by omega) (by omega)) (.inr (.inr (.inr (.inr room))))
          · -- every removable file of the map is gone and there is still no room
            have evictedSize := @getCacheSize_eq eviction.dir (by omega)
            rcases storeBlob_size cache answers eviction.dir key blob with
              ⟨none, same, refused⟩ | ⟨some, creates, free, -⟩
            · rw [none, same, evictedSize]
              refine iff_of_true ⟨by omega, nofun⟩ ?_
              rcases refused with failed | taken
              · exact .inr (.inr (.inl failed))
              · rw [Ne, gone] at taken
                exact .inr (.inr (.inr (.inl (taken_iff.mpr taken))))
            · rw [some]
              refine iff_of_false (fun kept => ?_) ?_
              · have fits := kept.2 eviction.dir rfl
                rw [evictedSize] at fits
                omega
              · rintro (disabled | wide | failed | taken | fits)
                · rw [enabled] at disabled
                  cases disabled
                · exact large wide
                · rw [creates] at failed
                  cases failed
                · exact taken_iff.mp taken ((gone key).mp free)
                · exact room fits
      · rw [if_neg full]
        exact iff_of_true (storeBlob_bounded (by omega) narrow) (.inr (.inr (.inr (.inr (by omega)))))

end DiskCache

open DiskCache

/-- The size of the disk cache stays bounded exactly when the least recent files of each second make
room for the blob and hold all that can be removed. -/
theorem cache_bound (cache : DiskCache) (answers : WriteAnswers) (dir : CacheDirectory) (key : String)
    (blob : List UInt8) (narrow : dir.totalSize + (blob.length + DigestLength) < 2 ^ 64)
    (bounded : getCacheSize dir ≤ cache.maxSize) :
    CacheBound cache answers dir key blob ↔ RoomFor cache answers dir key blob ∧ NoneHidden dir := by
  have smaller : dir.totalSize < 2 ^ 64 := Nat.lt_of_le_of_lt (Nat.le_add_right _ _) narrow
  rw [getCacheSize_eq smaller] at bounded
  rw [← room_iff narrow bounded, ← frees_iff smaller]
  constructor
  · rintro ⟨stays, room, frees, -⟩
    exact ⟨⟨stays, room⟩, frees⟩
  · rintro ⟨⟨stays, room⟩, frees⟩
    exact ⟨stays, room, frees, removed_ascending smaller⟩

/-- A cache of 120 bytes. -/
def smallCache : DiskCache := ⟨true, 120, fun _ => ⟨List.replicate 5 0, rfl⟩⟩

/-- Two unlocked files of sixty bytes each. -/
def sixtyByteFiles (firstAccess secondAccess : Int) : CacheDirectory where
  files := [⟨"first", List.replicate 60 0, firstAccess, true, true, none⟩,
    ⟨"second", List.replicate 60 0, secondAccess, true, true, none⟩]
  distinct := by simp

/-- Every write stores all its bytes at once. -/
def wholeWrites : WriteAnswers := ⟨true, fun _ => some 1000, fun _ => some 1000, true, 9, true⟩

/-- The eviction keeps a cache with files of different seconds within its bound. -/
theorem different_seconds_bound : CacheBound smallCache wholeWrites (sixtyByteFiles 3 4) "key" [1] :=
  (cache_bound smallCache wholeWrites (sixtyByteFiles 3 4) "key" [1] (by decide +kernel)
    (by decide +kernel)).mpr ⟨by decide +kernel, by decide +kernel⟩

/-- Of two files that were accessed in the same second only the first is evicted, and the blob is
written all the same. -/
theorem same_second_exceeds : ¬ ∀ (cache : DiskCache) (answers : WriteAnswers) (dir : CacheDirectory)
    (key : String) (blob : List UInt8), getCacheSize dir ≤ cache.maxSize →
    CacheBound cache answers dir key blob := by
  intro bound
  have bounded := (bound smallCache wholeWrites (sixtyByteFiles 3 3) "key" [1] (by decide +kernel)).bounded
  exact absurd bounded (by decide +kernel)

end NpuDriver
