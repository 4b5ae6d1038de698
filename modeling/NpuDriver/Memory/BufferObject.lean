import NpuDriver.Library.ByteImage

/-! Buffer objects: their address range and the host's copies into them. -/

namespace NpuDriver

open Library

/-- `UINT16_MAX`, `UINT32_MAX` and `UINT64_MAX`. -/
def UINT16_MAX : Nat := 2 ^ 16 - 1
def UINT32_MAX : Nat := 2 ^ 32 - 1
def UINT64_MAX : Nat := 2 ^ 64 - 1

/-- `safe_cast<uint32_t>` of an unsigned value; `none` is the thrown `std::overflow_error`. -/
def safeCastU32 (value : Nat) : Option Nat :=
  if value > UINT32_MAX then none else some value

theorem safeCastU32_of_le (fits : value ≤ UINT32_MAX) : safeCastU32 value = some value := if_neg (Nat.not_lt.mpr fits)

theorem safeCastU32_of_lt (large : UINT32_MAX < value) : safeCastU32 value = none := if_pos large

theorem safeCastU32_eq {value cast : Nat} (fits : safeCastU32 value = some cast) : cast = value := by
  rw [safeCastU32] at fits
  split at fits
  · cases fits
  · exact (Option.some.inj fits).symm

/-- `ALIGN(x, a)` of the kernel headers. -/
def ALIGN (value alignment : Nat) : Nat := (value + (alignment - 1)) / alignment * alignment

/-- Alignment to the firmware's data cache line. -/
def getFwDataCacheAlign (value : Nat) : Nat := ALIGN value 64

theorem le_getFwDataCacheAlign (value : Nat) : value ≤ getFwDataCacheAlign value := by
  simp only [getFwDataCacheAlign, ALIGN]
  omega

theorem getFwDataCacheAlign_mod (value : Nat) : getFwDataCacheAlign value % 64 = 0 := by
  simp only [getFwDataCacheAlign, ALIGN]
  omega

/-- A buffer object; `id` is the process-wide counter value of its constructor,
`basePtr` is zero where the buffer is not mapped into the host. -/
structure VPUBufferObject where
  id : Nat
  handle : Nat
  basePtr : Nat
  allocSize : Nat
  vpuAddr : Nat
deriving DecidableEq, Repr

namespace VPUBufferObject

def isInRange (bo : VPUBufferObject) (ptr : Nat) : Bool :=
  bo.basePtr ≤ ptr && ptr < bo.basePtr + bo.allocSize

/-- NPU address of a host pointer, zero when the pointer is outside the buffer. -/
def getVPUAddr (bo : VPUBufferObject) (ptr : Nat) : Nat :=
  if bo.isInRange ptr then bo.vpuAddr + (ptr - bo.basePtr) else 0

/-- Copy bytes into the buffer's memory; the contents are passed beside the object. -/
def copyToBuffer (bo : VPUBufferObject) (image : Image) (data : List UInt8) (offset : Nat) :
    Option Image :=
  if bo.basePtr = 0 then none
  else if offset + data.length > bo.allocSize then none
  else if data = [] then none
  else some (image.write offset data)

theorem copyToBuffer_some {bo : VPUBufferObject} {image written : Image} {data : List UInt8}
    (success : bo.copyToBuffer image data offset = some written) :
    offset + data.length ≤ bo.allocSize ∧ data ≠ [] ∧ written = image.write offset data := by
  unfold copyToBuffer at success
  split at success
  · cases success
  · split at success
    · cases success
    · split at success
      · cases success
      · rename_i inside nonempty
        exact ⟨by omega, nonempty, (Option.some.inj success).symm⟩

theorem copyToBuffer_of_fits {bo : VPUBufferObject} (mapped : bo.basePtr ≠ 0)
    (fits : offset + data.length ≤ bo.allocSize) (nonempty : data ≠ []) :
    bo.copyToBuffer image data offset = some (image.write offset data) := by
  simp [copyToBuffer, mapped, nonempty, show ¬ bo.allocSize < offset + data.length by omega]

theorem getVPUAddr_of_inRange {bo : VPUBufferObject} (inside : bo.isInRange ptr = true) :
    bo.getVPUAddr ptr = bo.vpuAddr + (ptr - bo.basePtr) := by
  simp [getVPUAddr, inside]

end VPUBufferObject

end NpuDriver
