import Mathlib.Data.List.Basic

/-! Fields hashed one after the other, each with the hash so far as its seed. -/

namespace NpuDriver.Library

variable {Field Seed Argument Result : Type}

def chain (hash : Field → Seed → Seed) (seed : Seed) (fields : List Field) : Seed :=
  fields.foldl (fun current field => hash field current) seed

/-- The arguments of the hash calls of a chain. -/
def chainCalls (hash : Field → Seed → Seed) : Seed → List Field → List (Field × Seed)
  | _, [] => []
  | seed, field :: rest => (field, seed) :: chainCalls hash (hash field seed) rest

/-- The function tells the listed arguments apart. -/
def InjectiveOn (function : Argument → Result) (arguments : List Argument) : Prop :=
  ∀ left ∈ arguments, ∀ right ∈ arguments, function left = function right → left = right

instance [DecidableEq Argument] [DecidableEq Result] (function : Argument → Result)
    (arguments : List Argument) : Decidable (InjectiveOn function arguments) :=
  inferInstanceAs (Decidable (∀ left ∈ arguments, ∀ right ∈ arguments, _ → _))

theorem InjectiveOn.mono {function : Argument → Result} (injective : InjectiveOn function arguments)
    (fewer : some' ⊆ arguments) : InjectiveOn function some' :=
  fun left first right second => injective left (fewer first) right (fewer second)

/-- Chains of one length that end in the same hash have started alike and hashed the same fields, when
the hash tells their calls apart. -/
theorem chain_injective {hash : Field → Seed → Seed} {seed other : Seed} {left right : List Field}
    (length : left.length = right.length)
    (injective : InjectiveOn (fun call : Field × Seed => hash call.1 call.2)
      (chainCalls hash seed left ++ chainCalls hash other right))
    (same : chain hash seed left = chain hash other right) : seed = other ∧ left = right := by
  induction left generalizing seed other right with
  | nil =>
    cases right with
    | nil => exact ⟨same, rfl⟩
    | cons field rest => cases length
  | cons field rest ih =>
    cases right with
    | nil => cases length
    | cons second others =>
      have later : chainCalls hash (hash field seed) rest ++ chainCalls hash (hash second other) others ⊆
          chainCalls hash seed (field :: rest) ++ chainCalls hash other (second :: others) :=
        List.append_subset.mpr
          ⟨fun call member => List.mem_append_left _ (List.mem_cons_of_mem _ member),
            fun call member => List.mem_append_right _ (List.mem_cons_of_mem _ member)⟩
      obtain ⟨seeds, rfl⟩ := ih (Nat.succ.inj length) (injective.mono later) same
      have calls := injective (field, seed) (List.mem_append_left _ List.mem_cons_self)
        (second, other) (List.mem_append_right _ List.mem_cons_self) seeds
      cases calls
      exact ⟨rfl, rfl⟩

end NpuDriver.Library
