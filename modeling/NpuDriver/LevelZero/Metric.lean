import NpuDriver.LevelZero.CommandList
import Mathlib.Data.List.Dedup

/-! The activation of metric groups. -/

namespace NpuDriver

open ZeResult

/-- An entry of `activatedMetricGroups`; a group is named by its handle. -/
structure ActivatedMetricGroup where
  domain : Nat
  metricGroup : Nat
  vpuFd : Int
deriving DecidableEq, Repr

/-- `MetricContext` with what it reads of its device and of the group objects: the groups of the device,
the domains in the properties of all groups, and their flags, which are shared by all contexts. -/
structure MetricContext where
  metricsLoaded : Bool
  metricGroups : List Nat
  domain : Nat → Nat
  isActivated : Nat → Bool
  activatedMetricGroups : List ActivatedMetricGroup

namespace MetricContext

/-- The flags after the `remove_if` of `deactivateMetricGroups`. -/
def clearFlags (vpuFd : Int) : List ActivatedMetricGroup → (Nat → Bool) → Nat → Bool
  | [], isActivated => isActivated
  | entry :: rest, isActivated =>
    clearFlags vpuFd rest
      (if entry.vpuFd = vpuFd then Function.update isActivated entry.metricGroup false else isActivated)

def deactivateMetricGroups (context : MetricContext) (vpuFd : Int) : MetricContext :=
  { context with
    isActivated := clearFlags vpuFd context.activatedMetricGroups context.isActivated
    activatedMetricGroups := context.activatedMetricGroups.filter fun entry => entry.vpuFd ≠ vpuFd }

/-- The first entry of the same domain decides. -/
def activateMetricGroup (context : MetricContext) (vpuFd : Int) (metricGroup : Nat) : Bool × MetricContext :=
  if metricGroup ∉ context.metricGroups then (false, context)
  else if context.isActivated metricGroup then (false, context)
  else
    match context.activatedMetricGroups.find? (fun entry => entry.domain = context.domain metricGroup) with
    | some entry => (entry.metricGroup = metricGroup ∧ entry.vpuFd = vpuFd, context)
    | none =>
      (true,
        { context with
          isActivated := Function.update context.isActivated metricGroup true
          activatedMetricGroups :=
            context.activatedMetricGroups ++ [⟨context.domain metricGroup, metricGroup, vpuFd⟩] })

/-- The loop of `activateMetricGroups`, which an error does not stop. -/
def activateEach (vpuFd : Int) : MetricContext → List Nat → Bool × MetricContext
  | context, [] => (true, context)
  | context, metricGroup :: rest =>
    let activated := context.activateMetricGroup vpuFd metricGroup
    let others := activateEach vpuFd activated.2 rest
    (activated.1 && others.1, others.2)

/-- The array holds at least `count` groups when it is not null. -/
def activateMetricGroups (context : MetricContext) (vpuFd : Int) (count : Nat)
    (phMetricGroups : Option (List Nat)) : ZeResult × MetricContext :=
  if !context.metricsLoaded then (ZE_RESULT_ERROR_UNINITIALIZED, context)
  else if count > 0 ∧ phMetricGroups = none then (ZE_RESULT_ERROR_INVALID_SIZE, context)
  else
    let activated := activateEach vpuFd (context.deactivateMetricGroups vpuFd) ((phMetricGroups.getD []).take count)
    (if activated.1 then ZE_RESULT_SUCCESS else ZE_RESULT_ERROR_INVALID_ARGUMENT, activated.2)

end MetricContext

/-- A call of `activateMetricGroups` from some context. -/
structure MetricCall where
  vpuFd : Int
  count : Nat
  phMetricGroups : Option (List Nat)

def MetricCall.run (context : MetricContext) (call : MetricCall) : MetricContext :=
  (context.activateMetricGroups call.vpuFd call.count call.phMetricGroups).2

end NpuDriver
