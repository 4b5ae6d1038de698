import NpuDriver.Cache.DiskCache

/-! What the disk cache reads back: any file content, and what it wrote itself. -/

namespace NpuDriver

open HashCity (DigestLength getDigest)

namespace DiskCache

variable {cache : DiskCache} {dir : CacheDirectory} {key : String}

theorem readMapped_some (inside : offset + length ≤ mapped.length) :
    readMapped mapped offset length = some ((mapped.drop offset).take length) :=
  if_pos inside

/-- The checksum test without its address arithmetic. -/
theorem checkBlob_eq (hash : List UInt8 → HashTable) (mapped : List UInt8) :
    checkBlob hash mapped =
      if mapped.length < DigestLength then .outside
      else if getDigest hash (mapped.take (mapped.length - DigestLength)) =
          mapped.drop (mapped.length - DigestLength) then
        .found (mapped.take (mapped.length - DigestLength))
      else .invalid := by
  have digest : DigestLength = 80 := rfl
  rw [checkBlob]
  by_cases short : mapped.length < DigestLength
  · -- the difference wraps, and already the hashed part leaves the mapping
    have wrapped := sizeDifference_of_lt short
    have outside : readMapped mapped 0 (sizeDifference mapped.length DigestLength) = none :=
      if_neg (by omega)
    rw [outside, if_pos short]
    rfl
  · have rest : (mapped.drop (mapped.length - DigestLength)).take DigestLength =
        mapped.drop (mapped.length - DigestLength) := by
      rw [List.take_of_length_le]
      rw [List.length_drop]
      omega
    rw [sizeDifference_of_le (Nat.le_of_not_lt short), readMapped_some (by omega),
      readMapped_some (by omega), rest, if_neg short]
    rfl

theorem checkBlob_found {hash : List UInt8 → HashTable} {mapped blob : List UInt8}
    (found : checkBlob hash mapped = .found blob) :
    mapped = blob ++ getDigest hash blob := by
  rw [checkBlob_eq] at found
  split at found
  · cases found
  · split at found
    · rename_i framed
      cases found
      rw [framed, List.take_append_drop]
    · cases found

theorem checkBlob_framed (hash : List UInt8 → HashTable) (blob : List UInt8) :
    checkBlob hash (blob ++ getDigest hash blob) = .found blob := by
  have length : (blob ++ getDigest hash blob).length = blob.length + DigestLength := by simp
  rw [checkBlob_eq, length, Nat.add_sub_cancel]
  simp [List.take_left', List.drop_left']

theorem getBlob_enabled (enabled : cache.enabled = true) (opened : dir.openWithSharedLock key = some file)
    (full : file.size ≠ 0) :
    cache.getBlob true dir key =
      match checkBlob cache.hash file.content with
      | .invalid => (.invalid, (dir.osiFileRemove key).2)
      | lookup => (lookup, dir) := by
  cases checked : checkBlob cache.hash file.content <;> simp [getBlob, enabled, opened, full, checked]

/-- What a lookup that is not a miss has read. -/
theorem getBlob_cases (cache : DiskCache) (maps : Bool) (dir : CacheDirectory) (key : String) :
    (cache.getBlob maps dir key).1 = .missed ∨
      ∃ file, cache.enabled = true ∧ maps = true ∧ dir.openWithSharedLock key = some file ∧ file.size ≠ 0 ∧
        (cache.getBlob maps dir key).1 = checkBlob cache.hash file.content := by
  by_cases enabled : cache.enabled = true
  · cases opened : dir.openWithSharedLock key with
    | none =>
      left
      simp [getBlob, enabled, opened]
    | some file =>
      by_cases empty : file.size = 0
      · left
        simp [getBlob, enabled, opened, empty]
      · cases maps with
        | false =>
          left
          simp [getBlob, enabled, opened]
        | true =>
          right
          refine ⟨file, enabled, rfl, rfl, empty, ?_⟩
          rw [getBlob_enabled enabled opened empty]
          split
          · rename_i wrong
            exact wrong.symm
          · rfl
  · left
    simp [getBlob, enabled]

theorem openWithSharedLock_find (opened : dir.openWithSharedLock key = some file) :
    dir.find key = some file := by
  rw [CacheDirectory.openWithSharedLock] at opened
  split at opened
  · cases opened
  · rename_i found hit
    split at opened
    · cases opened
      exact hit
    · cases opened

/-- A new file is found under its name. -/
theorem create_find {written : CacheDirectory} (created : dir.create file = some written) :
    written.find file.name = some file := by
  rw [CacheDirectory.create] at created
  split at created
  · cases created
  · rename_i free
    cases created
    have absent : dir.files.find? (fun other => other.name = file.name) = none := by
      rw [List.find?_eq_none]
      intro other member same
      exact free (List.mem_map.mpr ⟨other, member, of_decide_eq_true same⟩)
    simp only [CacheDirectory.find]
    rw [List.find?_append, absent]
    simp

theorem writeBlob_completed {answers : WriteAnswers} {blob content : List UInt8}
    (wrote : cache.writeBlob answers blob = (true, content)) :
    blob ≠ [] ∧ content = blob ++ getDigest cache.hash blob := by
  rw [writeBlob] at wrote
  obtain ⟨-, first⟩ := OsFile.write_stored answers.writeBlob blob
  obtain ⟨-, second⟩ := OsFile.write_stored answers.writeSum (getDigest cache.hash blob)
  split at wrote
  · cases wrote
  · rename_i stored blobWritten
    rw [blobWritten] at first
    obtain ⟨nonempty, same⟩ : blob ≠ [] ∧ stored = blob := first rfl
    simp only [Prod.mk.injEq] at wrote
    obtain ⟨success, rfl⟩ := wrote
    exact ⟨nonempty, by rw [same, (second success).2]⟩

/-- A file that holds a blob and its digest is read back. -/
theorem getBlob_framed (enabled : cache.enabled = true) (opened : dir.openWithSharedLock key = some file)
    (framed : file.content = blob ++ getDigest cache.hash blob) : cache.getBlob true dir key = (.found blob, dir) := by
  have full : file.size ≠ 0 := by
    simp [CacheFile.size, framed, DigestLength]
  rw [getBlob_enabled enabled opened full, framed, checkBlob_framed]

/-- What a store that completes leaves: its file, which is read back. -/
theorem storeBlob_completed {answers : WriteAnswers} {blob : List UInt8} (enabled : cache.enabled = true)
    (completed : (cache.storeBlob answers dir key blob).completed = true) :
    cache.getBlob true (cache.storeBlob answers dir key blob).dir key =
      (.found blob, (cache.storeBlob answers dir key blob).dir) := by
  rw [storeBlob] at completed ⊢
  split
  · rename_i refused
    rw [if_pos refused] at completed
    cases completed
  · rename_i creates
    rw [if_neg creates] at completed
    rcases wrote : cache.writeBlob answers blob with ⟨success, content⟩
    simp only [wrote] at completed ⊢
    cases created : dir.create ⟨key, content, answers.accessTime, true, answers.removes, none⟩ with
    | none => simp [created] at completed
    | some written =>
      simp only [created] at completed ⊢
      cases success with
      | false => simp at completed
      | true =>
        obtain ⟨nonempty, framed⟩ := writeBlob_completed wrote
        have found := create_find created
        have opened : written.openWithSharedLock key =
            some ⟨key, content, answers.accessTime, true, answers.removes, none⟩ := by
          simp only [CacheDirectory.openWithSharedLock, found]
          rfl
        have framedFile := getBlob_framed enabled opened framed
        cases maps : answers.maps with
        | true =>
          rw [framedFile]
          exact framedFile
        | false =>
          have missed : cache.getBlob false written key = (.missed, written) := by
            simp [getBlob, enabled, opened]
          rw [missed]
          exact framedFile

theorem setBlob_completed {answers : WriteAnswers} {blob : List UInt8}
    (completed : (cache.setBlob answers dir key (some blob)).completed = true) :
    cache.getBlob true (cache.setBlob answers dir key (some blob)).dir key =
      (.found blob, (cache.setBlob answers dir key (some blob)).dir) := by
  by_cases enabled : cache.enabled = true
  · simp only [setBlob, enabled, Bool.not_true, Bool.false_eq_true, ↓reduceIte] at completed ⊢
    split
    · rename_i large
      rw [if_pos large] at completed
      cases completed
    · rename_i fits
      rw [if_neg fits] at completed
      split
      · rename_i full
        rw [if_pos full] at completed
        exact storeBlob_completed enabled completed
      · rename_i room
        rw [if_neg room] at completed
        exact storeBlob_completed enabled completed
  · simp [setBlob, enabled] at completed

end DiskCache

open DiskCache

/-- `getBlob` stays inside the mapping and returns what precedes its own digest, and it returns what
`setBlob` stored, exactly when the file it maps is not shorter than a digest. -/
theorem cache_integrity (cache : DiskCache) (maps : Bool) (dir : CacheDirectory) (key : String) :
    ((cache.getBlob maps dir key).1 ≠ .outside ∧
      (∀ blob, (cache.getBlob maps dir key).1 = .found blob →
        ∃ file, dir.find key = some file ∧ file.content = blob ++ getDigest cache.hash blob) ∧
      ∀ answers blob, (cache.setBlob answers dir key (some blob)).completed = true →
        (cache.getBlob true (cache.setBlob answers dir key (some blob)).dir key).1 = .found blob) ↔
    (cache.enabled = true → maps = true → ∀ file, dir.openWithSharedLock key = some file →
      file.size = 0 ∨ DigestLength ≤ file.size) := by
  constructor
  · rintro ⟨inside, -, -⟩ enabled rfl file opened
    by_contra short
    obtain ⟨full, less⟩ := not_or.mp short
    refine inside ?_
    have small : file.content.length < DigestLength := Nat.lt_of_not_le less
    have outside : checkBlob cache.hash file.content = .outside := by
      rw [checkBlob_eq, if_pos small]
    rw [getBlob_enabled enabled opened full, outside]
  · intro long
    refine ⟨?_, ?_, fun answers blob completed => by rw [setBlob_completed completed]⟩
    · intro outside
      rcases getBlob_cases cache maps dir key with missed | ⟨file, enabled, mapped, opened, full, same⟩
      · rw [missed] at outside
        cases outside
      · rw [same, checkBlob_eq] at outside
        have digest : DigestLength ≤ file.content.length := (long enabled mapped file opened).resolve_left full
        rw [if_neg (Nat.not_lt_of_le digest)] at outside
        split at outside <;> cases outside
    · intro blob found
      rcases getBlob_cases cache maps dir key with missed | ⟨file, -, -, opened, -, same⟩
      · rw [missed] at found
        cases found
      · rw [same] at found
        exact ⟨file, openWithSharedLock_find opened, checkBlob_found found⟩

/-- A cache with a hash that ignores its data. -/
def sampleCache : DiskCache := ⟨true, 2 ^ 20, fun _ => ⟨[1, 2, 3, 4, 0], rfl⟩⟩

/-- A directory with one file that holds ten bytes. -/
def shortFileDirectory : CacheDirectory :=
  ⟨[⟨"key", List.replicate 10 0, 0, true, true, none⟩], by simp⟩

/-- The digest of a ten-byte file is looked for in front of the mapping. -/
theorem short_file_read_outside : (sampleCache.getBlob true shortFileDirectory "key").1 = .outside := by
  decide +kernel

end NpuDriver
