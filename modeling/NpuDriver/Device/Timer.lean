import NpuDriver.Library.CheckedSum
import Mathlib.Algebra.Ring.Nat

/-! Deadlines on the steady clock, in signed nanoseconds. -/

namespace NpuDriver

open Library

def INT64_MAX : Nat := 2 ^ 63 - 1

/-- A signed 64-bit addition. The driver is built with `-ftrapv`: an overflow, `none`, aborts the process. -/
def addInt64 (left right : Int) : Option Int := checkedAdd (-2 ^ 63) INT64_MAX left right

/-- `VPU::getAbsoluteTimeoutNanoseconds` at a time of the steady clock. -/
def getAbsoluteTimeoutNanoseconds (now : Int) (userTimeout : Nat) : Option Int :=
  let timeout : Int := if userTimeout > INT64_MAX then INT64_MAX else userTimeout
  if timeout ≥ INT64_MAX then some INT64_MAX
  else
    (addInt64 timeout now).bind fun timeoutAbs =>
      if timeoutAbs ≥ INT64_MAX then some INT64_MAX else addInt64 now timeout

end NpuDriver
