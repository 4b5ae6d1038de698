import NpuDriver.Device.TrackedBuffers
import NpuDriver.Library.Alignment

/-! The pages that a user range is taken to. -/

namespace NpuDriver

open Library

/-- The arithmetic of `createBufferObjectFromUserPtr` over the integers: the base and the size of the range. -/
def exactPageRange (pageSize userPtr size : Int) : Int × Int :=
  let align : Int → Int := fun value => (value + (pageSize - 1)) / pageSize * pageSize
  if align userPtr = userPtr then (userPtr, align size)
  else
    let alignPtr := align (userPtr - pageSize)
    if align size < size + (userPtr - alignPtr) then (alignPtr, align size + pageSize) else (alignPtr, align size)

namespace BufferTracker

variable {tracker : BufferTracker} {userPtr size : Nat}

/-- `ALIGN` as it is written, by a mask. -/
theorem getPageAlignedSize_mask {exponent : Nat} (power : tracker.pageSize = 2 ^ exponent) (inside : exponent ≤ 64)
    (value : BitVec 64) :
    ((value + BitVec.ofNat 64 (2 ^ exponent - 1)) &&& ~~~(BitVec.ofNat 64 (2 ^ exponent - 1))).toNat =
      tracker.getPageAlignedSize value.toNat := by
  have small : 2 ^ exponent - 1 < 2 ^ 64 := by
    have bound : 2 ^ exponent ≤ 2 ^ 64 := Nat.pow_le_pow_right (by decide) inside
    have positive := Nat.two_pow_pos exponent
    omega
  rw [toNat_and_not_mask, BitVec.toNat_add, BitVec.toNat_ofNat, Nat.mod_eq_of_lt small, getPageAlignedSize, power]
  rfl

theorem getPageAlignedSize_eq (value : Nat) (fits : value + tracker.pageSize < 2 ^ 64) :
    tracker.getPageAlignedSize value = roundUp value tracker.pageSize := by
  rw [getPageAlignedSize, roundUp, Nat.mod_eq_of_lt (by omega)]

/-- A page is subtracted and the result is rounded up; below the first page both wrap around. -/
theorem getPageAlignedSize_sub (nonNull : userPtr ≠ 0) (paged : 0 < tracker.pageSize)
    (fits : userPtr + tracker.pageSize < 2 ^ 64) (unaligned : ¬ tracker.pageSize ∣ userPtr) :
    tracker.getPageAlignedSize ((userPtr + 2 ^ 64 - tracker.pageSize) % 2 ^ 64) =
      roundDown userPtr tracker.pageSize := by
  have pred : ((userPtr + 2 ^ 64 - tracker.pageSize) % 2 ^ 64 + (tracker.pageSize - 1)) % 2 ^ 64 = userPtr - 1 := by
    omega
  rw [getPageAlignedSize, pred]
  exact roundDown_pred unaligned

/-- The end of the range, counted from the start of its first page. -/
theorem roundUp_page (paged : 0 < tracker.pageSize) :
    roundUp (userPtr + size) tracker.pageSize =
      roundDown userPtr tracker.pageSize + roundUp (size + userPtr % tracker.pageSize) tracker.pageSize := by
  have whole := roundDown_add_mod userPtr tracker.pageSize
  rw [← roundUp_add_of_dvd (dvd_roundDown userPtr tracker.pageSize) paged]
  congr 1
  omega

/-- The range is the one that the ends of the user's are rounded to: no sum on the way to it wraps around. -/
theorem pageRange_eq (nonNull : userPtr ≠ 0) (paged : 0 < tracker.pageSize)
    (fits : userPtr + size + tracker.pageSize < 2 ^ 64) :
    tracker.pageRange userPtr size =
      ⟨roundDown userPtr tracker.pageSize,
        roundUp (userPtr + size) tracker.pageSize - roundDown userPtr tracker.pageSize⟩ := by
  have whole := roundDown_add_mod userPtr tracker.pageSize
  have inPage := Nat.mod_lt userPtr paged
  have near := roundUp_lt_add paged size
  rw [roundUp_page paged, Nat.add_sub_cancel_left, pageRange, getPageAlignedSize_eq size (by omega),
    getPageAlignedSize_eq userPtr (by omega)]
  by_cases aligned : tracker.pageSize ∣ userPtr
  · have start : userPtr % tracker.pageSize = 0 := Nat.mod_eq_zero_of_dvd aligned
    rw [if_pos ((roundUp_eq_self_iff paged).mpr aligned), start, Nat.add_zero, roundDown_eq_self aligned]
  · have head : userPtr - roundDown userPtr tracker.pageSize = userPtr % tracker.pageSize := by omega
    rw [if_neg fun same => aligned ((roundUp_eq_self_iff paged).mp same),
      getPageAlignedSize_sub nonNull paged (by omega) aligned]
    simp only
    rw [head, Nat.mod_eq_of_lt (show size + userPtr % tracker.pageSize < 2 ^ 64 by omega), roundUp_add inPage]
    split
    · rename_i short
      rw [Nat.mod_eq_of_lt (show roundUp size tracker.pageSize + tracker.pageSize < 2 ^ 64 by omega)]
    · rfl

/-- Over the integers, too, the start of the page before the next one is that of the pointer's page. -/
theorem exactAlign_sub {page : Nat} (nonNull : userPtr ≠ 0) (unaligned : ¬ page ∣ userPtr) :
    ((userPtr : Int) - page + (page - 1)) / page * page = (roundDown userPtr page : Nat) := by
  have pred : (userPtr : Int) - page + (page - 1) = ((userPtr - 1 : Nat) : Int) := by omega
  rw [pred, ← roundDown_pred unaligned, roundDown, Int.natCast_mul, Int.natCast_ediv]

theorem exactAlign {page : Nat} (paged : 0 < page) (value : Nat) :
    ((value : Int) + (page - 1)) / page * page = (roundUp value page : Nat) := by
  have sum : (value : Int) + (page - 1) = ((value + (page - 1) : Nat) : Int) := by omega
  rw [sum, roundUp, Int.natCast_mul, Int.natCast_ediv]

theorem exactPageRange_eq (nonNull : userPtr ≠ 0) (paged : 0 < tracker.pageSize) :
    exactPageRange tracker.pageSize userPtr size =
      (((roundDown userPtr tracker.pageSize : Nat) : Int),
        ((roundUp (userPtr + size) tracker.pageSize - roundDown userPtr tracker.pageSize : Nat) : Int)) := by
  have whole := roundDown_add_mod userPtr tracker.pageSize
  have inPage := Nat.mod_lt userPtr paged
  simp only [exactPageRange, exactAlign paged, Int.natCast_inj]
  rw [roundUp_page paged, Nat.add_sub_cancel_left]
  by_cases aligned : tracker.pageSize ∣ userPtr
  · have start : userPtr % tracker.pageSize = 0 := Nat.mod_eq_zero_of_dvd aligned
    rw [if_pos ((roundUp_eq_self_iff paged).mpr aligned), start, Nat.add_zero, roundDown_eq_self aligned]
  · have head : (size : Int) + (userPtr - (roundDown userPtr tracker.pageSize : Nat)) =
        ((size + userPtr % tracker.pageSize : Nat) : Int) := by omega
    rw [if_neg fun same => aligned ((roundUp_eq_self_iff paged).mp same), exactAlign_sub nonNull aligned, head,
      roundUp_add inPage]
    simp only [Int.ofNat_lt]
    split
    · rfl
    · rfl

end BufferTracker

/-- The smallest range of whole pages around a user range, computed as over the integers. -/
structure PageCover (pageSize userPtr size : Nat) (range : AddressRange) : Prop where
  covers : Covers pageSize userPtr size range.base range.stop
  smallest : ∀ base stop, Covers pageSize userPtr size base stop → base ≤ range.base ∧ range.stop ≤ stop
  exactly : exactPageRange pageSize userPtr size = ((range.base : Int), (range.size : Int))
  inside : range.stop < 2 ^ 64

namespace BufferTracker

variable {tracker : BufferTracker} {userPtr size : Nat}

theorem pageRange_stop (nonNull : userPtr ≠ 0) (paged : 0 < tracker.pageSize)
    (fits : userPtr + size + tracker.pageSize < 2 ^ 64) :
    (tracker.pageRange userPtr size).stop = roundUp (userPtr + size) tracker.pageSize := by
  have lower := roundDown_le userPtr tracker.pageSize
  have upper := le_roundUp paged (userPtr + size)
  rw [pageRange_eq nonNull paged fits, AddressRange.stop]
  simp only
  omega

theorem pageRange_cover (nonNull : userPtr ≠ 0) (paged : 0 < tracker.pageSize)
    (fits : userPtr + size + tracker.pageSize < 2 ^ 64) :
    PageCover tracker.pageSize userPtr size (tracker.pageRange userPtr size) := by
  have stop := pageRange_stop nonNull paged fits
  have base : (tracker.pageRange userPtr size).base = roundDown userPtr tracker.pageSize := by
    rw [pageRange_eq nonNull paged fits]
  have near := roundUp_lt_add paged (userPtr + size)
  constructor
  · rw [base, stop]
    exact rounded_covers paged userPtr size
  · intro lower upper covers
    rw [base, stop]
    exact covers.contains_rounded
  · rw [exactPageRange_eq nonNull paged, pageRange_eq nonNull paged fits]
  · omega

/-- The request and the object of an import of valid arguments. -/
theorem createBufferObjectFromUserPtr_eq (nonNull : userPtr ≠ 0) (nonEmpty : 0 < size)
    (kernel : AddressRange → Option (Nat × Nat)) :
    tracker.createBufferObjectFromUserPtr userPtr size kernel =
      if tracker.userPtrCapability = true then
        (some (tracker.pageRange userPtr size), (kernel (tracker.pageRange userPtr size)).map fun answer =>
          { id := tracker.created, handle := answer.1, basePtr := (tracker.pageRange userPtr size).base,
            allocSize := (tracker.pageRange userPtr size).size, vpuAddr := answer.2 })
      else (none, none) := by
  rw [createBufferObjectFromUserPtr, if_neg nonNull, if_neg (Nat.ne_of_gt nonEmpty)]
  cases tracker.userPtrCapability <;> rfl

/-- The object that an import into the context returns. -/
theorem importUserPtr_object {answer : Option (Nat × Nat)} {bo : VPUBufferObject}
    (imported : (tracker.importUserPtr userPtr size answer).1 = some bo) :
    (tracker.createBufferObjectFromUserPtr userPtr size fun _ => answer).2 = some bo := by
  rw [importUserPtr] at imported
  split at imported
  · cases imported
  · rename_i valid
    obtain ⟨nonNull, nonEmpty, capable⟩ := not_or.mp valid |>.imp_right not_or.mp
    rw [createBufferObjectFromUserPtr, if_neg nonNull, if_neg nonEmpty, if_neg capable]
    split at imported
    · cases imported
    · cases answer with
      | none => cases imported
      | some reply =>
        simp only at imported
        split at imported
        · cases imported
        · rw [track] at imported
          split at imported
          · cases imported
          · exact imported

/-- The kernel is asked for the smallest range of whole pages around the user's. When it answers, an object of
that range with the handle and the address of the answer is made, and every pointer into the user's range is in
range of the object. -/
theorem user_pages_cover {exponent : Nat} (power : tracker.pageSize = 2 ^ exponent) (nonNull : userPtr ≠ 0)
    (nonEmpty : 0 < size) (fits : userPtr + size + tracker.pageSize < 2 ^ 64)
    {kernel : AddressRange → Option (Nat × Nat)} {request : Option AddressRange} {object : Option VPUBufferObject}
    (created : tracker.createBufferObjectFromUserPtr userPtr size kernel = (request, object)) :
    request.isSome = tracker.userPtrCapability ∧
      (∀ range, request = some range → PageCover tracker.pageSize userPtr size range ∧
        ∀ answer, kernel range = some answer →
          ∃ bo, object = some bo ∧ bo.range = range ∧ bo.handle = answer.1 ∧ bo.vpuAddr = answer.2) ∧
      ∀ bo, object = some bo → request = some bo.range ∧
        ∀ ptr, userPtr ≤ ptr → ptr < userPtr + size → bo.isInRange ptr = true := by
  have paged : 0 < tracker.pageSize := power ▸ Nat.two_pow_pos exponent
  have cover := pageRange_cover nonNull paged fits
  rw [createBufferObjectFromUserPtr_eq nonNull nonEmpty] at created
  split at created
  · rename_i capable
    obtain ⟨rfl, rfl⟩ := Prod.mk.inj created
    refine ⟨capable.symm, ?_, ?_⟩
    · rintro range ⟨⟩
      refine ⟨cover, fun answer answered => ?_⟩
      rw [answered]
      exact ⟨_, rfl, rfl, rfl, rfl⟩
    · intro bo answered
      obtain ⟨answer, -, rfl⟩ := Option.map_eq_some_iff.mp answered
      refine ⟨rfl, fun ptr lower upper => ?_⟩
      have start := cover.covers.lower
      have stop := cover.covers.upper
      rw [AddressRange.stop] at stop
      rw [VPUBufferObject.isInRange, Bool.and_eq_true, decide_eq_true_eq, decide_eq_true_eq]
      simp only
      omega
  · rename_i incapable
    obtain ⟨rfl, rfl⟩ := Prod.mk.inj created
    exact ⟨(Bool.eq_false_iff.mpr incapable).symm, nofun, nofun⟩

/-- Two bytes around the end of the first page. -/
theorem first_pages_cover :
    (some (⟨0, 0x2000⟩ : AddressRange)).isSome = true ∧
      (∀ range, some (⟨0, 0x2000⟩ : AddressRange) = some range → PageCover 0x1000 0xfff 2 range ∧
        ∀ answer, some (3, 0x90000000) = some answer →
          ∃ bo, some (⟨0, 3, 0, 0x2000, 0x90000000⟩ : VPUBufferObject) = some bo ∧ bo.range = range ∧
            bo.handle = answer.1 ∧ bo.vpuAddr = answer.2) ∧
      ∀ bo, some (⟨0, 3, 0, 0x2000, 0x90000000⟩ : VPUBufferObject) = some bo →
        some (⟨0, 0x2000⟩ : AddressRange) = some bo.range ∧
          ∀ ptr, 0xfff ≤ ptr → ptr < 0xfff + 2 → bo.isInRange ptr = true :=
  @user_pages_cover (empty 0x1000 true) 0xfff 2 12 rfl (by decide) (by decide) (by decide)
    (fun _ => some (3, 0x90000000)) _ _ rfl

end BufferTracker

end NpuDriver
