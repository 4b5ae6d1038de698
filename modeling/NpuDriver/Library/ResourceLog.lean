import Mathlib.Data.List.Basic

/-! Logs of resources that are obtained and released, the latest event first. -/

namespace NpuDriver.Library

variable {Resource : Type}

inductive ResourceEvent (Resource : Type) where
  | obtained (resource : Resource)
  | released (resource : Resource)
deriving DecidableEq, Repr

open ResourceEvent

/-- The resource was obtained and has not been released since. -/
def Held : List (ResourceEvent Resource) → Resource → Prop
  | [], _ => False
  | obtained other :: earlier, resource => resource = other ∨ Held earlier resource
  | released other :: earlier, resource => resource ≠ other ∧ Held earlier resource

/-- Only what is held is released. -/
def Balanced : List (ResourceEvent Resource) → Prop
  | [] => True
  | obtained _ :: earlier => Balanced earlier
  | released resource :: earlier => Held earlier resource ∧ Balanced earlier

theorem Balanced.suffix {earlier : List (ResourceEvent Resource)} (later : List (ResourceEvent Resource))
    (balanced : Balanced (later ++ earlier)) : Balanced earlier := by
  induction later with
  | nil => exact balanced
  | cons event rest ih =>
    cases event with
    | obtained resource => exact ih balanced
    | released resource => exact ih balanced.2

/-- A resource that is held after its release was obtained again. -/
theorem Held.obtained_since {between earlier : List (ResourceEvent Resource)} {resource : Resource}
    (held : Held (between ++ released resource :: earlier) resource) : obtained resource ∈ between := by
  induction between with
  | nil => exact absurd rfl held.1
  | cons event rest ih =>
    cases event with
    | obtained other =>
      rcases held with rfl | before
      · exact List.mem_cons_self
      · exact List.mem_cons_of_mem _ (ih before)
    | released other => exact List.mem_cons_of_mem _ (ih held.2)

/-- Between two releases of a resource it is obtained. -/
theorem Balanced.obtained_between {later between earlier : List (ResourceEvent Resource)} {resource : Resource}
    (balanced : Balanced (later ++ released resource :: (between ++ released resource :: earlier))) :
    obtained resource ∈ between := by
  have latest := balanced.suffix later
  exact latest.1.obtained_since

end NpuDriver.Library
