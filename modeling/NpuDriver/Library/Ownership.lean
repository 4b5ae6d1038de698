import NpuDriver.Library.HandleTable
import NpuDriver.Library.ResourceLog

/-! Who owns the resources of a log: each that is held has one owner, or was given up without a release. -/

namespace NpuDriver.Library

variable {Owner Resource Object : Type} {log : List (ResourceEvent Resource)} {owned : Owner → Resource → Prop}
variable {lost : Resource → Prop} {owner : Owner} {resource : Resource}

structure Accounted (log : List (ResourceEvent Resource)) (owned : Owner → Resource → Prop) (lost : Resource → Prop) :
    Prop where
  balanced : Balanced log
  held : ∀ resource, Held log resource ↔ (∃ owner, owned owner resource) ∨ lost resource
  apart : ∀ first second resource, owned first resource → owned second resource → first = second
  unowned : ∀ owner resource, lost resource → ¬ owned owner resource

namespace Accounted

theorem nothing : Accounted ([] : List (ResourceEvent Resource)) (fun (_ : Owner) _ => False) fun _ => False := by
  refine ⟨trivial, ?_, ?_, ?_⟩
  · intro resource
    constructor
    · intro held
      cases held
    · rintro (⟨owner, absent⟩ | absent)
      · cases absent
      · cases absent
  · intro first second resource absent
    cases absent
  · intro owner resource absent
    cases absent

theorem held_of_owned (accounted : Accounted log owned lost) (owns : owned owner resource) : Held log resource :=
  (accounted.held resource).mpr (.inl ⟨owner, owns⟩)

/-- The same owners, said differently. -/
theorem congr (accounted : Accounted log owned lost) {owned' : Owner → Resource → Prop} {lost' : Resource → Prop}
    (owners : ∀ owner resource, owned' owner resource ↔ owned owner resource)
    (same : ∀ resource, lost' resource ↔ lost resource) : Accounted log owned' lost' := by
  have equal : owned' = owned := funext fun owner => funext fun resource => propext (owners owner resource)
  have lose : lost' = lost := funext fun resource => propext (same resource)
  rw [equal, lose]
  exact accounted

/-- What nobody held is obtained for an owner. -/
theorem obtain (accounted : Accounted log owned lost) (fresh : ¬ Held log resource) (owner : Owner) :
    Accounted (.obtained resource :: log) (fun other kept => owned other kept ∨ other = owner ∧ kept = resource) lost := by
  refine ⟨accounted.balanced, ?_, ?_, ?_⟩
  · intro kept
    rw [Held, accounted.held kept]
    constructor
    · rintro (same | ⟨other, owns⟩ | gone)
      · exact .inl ⟨owner, .inr ⟨rfl, same⟩⟩
      · exact .inl ⟨other, .inl owns⟩
      · exact .inr gone
    · rintro (⟨other, owns | ⟨-, same⟩⟩ | gone)
      · exact .inr (.inl ⟨other, owns⟩)
      · exact .inl same
      · exact .inr (.inr gone)
  · rintro first second kept (left | ⟨left, same⟩) (right | ⟨right, same'⟩)
    · exact accounted.apart first second kept left right
    · exact absurd (accounted.held_of_owned left) (same' ▸ fresh)
    · exact absurd (accounted.held_of_owned right) (same ▸ fresh)
    · rw [left, right]
  · rintro other kept gone (owns | ⟨-, same⟩)
    · exact accounted.unowned other kept gone owns
    · exact fresh (same ▸ (accounted.held kept).mpr (.inr gone))

/-- A resource that is obtained and given back at once has no owner. -/
theorem borrow (accounted : Accounted log owned lost) (fresh : ¬ Held log resource) :
    Accounted (.released resource :: .obtained resource :: log) owned lost := by
  refine ⟨⟨.inl rfl, accounted.balanced⟩, ?_, accounted.apart, accounted.unowned⟩
  intro kept
  rw [← accounted.held kept, Held, Held]
  constructor
  · rintro ⟨different, same | held⟩
    · exact absurd same different
    · exact held
  · intro held
    exact ⟨fun same => fresh (same ▸ held), .inr held⟩

/-- A resource that is obtained and forgotten stays held. -/
theorem abandon (accounted : Accounted log owned lost) (fresh : ¬ Held log resource) :
    Accounted (.obtained resource :: log) owned fun kept => lost kept ∨ kept = resource := by
  have unowned : ∀ owner, ¬ owned owner resource := fun owner owns => fresh (accounted.held_of_owned owns)
  refine ⟨accounted.balanced, ?_, accounted.apart, ?_⟩
  · intro kept
    rw [Held, accounted.held kept]
    tauto
  · rintro owner kept (gone | rfl)
    · exact accounted.unowned owner kept gone
    · exact unowned owner

/-- An owner gives a resource back. -/
theorem release (accounted : Accounted log owned lost) (owner : Owner) (owns : owned owner resource) :
    Accounted (.released resource :: log) (fun other kept => owned other kept ∧ kept ≠ resource) lost := by
  refine ⟨⟨accounted.held_of_owned owns, accounted.balanced⟩, ?_, ?_, ?_⟩
  · intro kept
    rw [Held, accounted.held kept]
    constructor
    · rintro ⟨different, ⟨other, others⟩ | gone⟩
      · exact .inl ⟨other, others, different⟩
      · exact .inr gone
    · rintro (⟨other, others, different⟩ | gone)
      · exact ⟨different, .inl ⟨other, others⟩⟩
      · exact ⟨fun same => accounted.unowned owner kept gone (same ▸ owns), .inr gone⟩
  · intro first second kept left right
    exact accounted.apart first second kept left.1 right.1
  · intro other kept gone others
    exact accounted.unowned other kept gone others.1

/-- An owner gives a resource up that stays held. -/
theorem lose (accounted : Accounted log owned lost) (owns : owned owner resource) :
    Accounted log (fun other kept => owned other kept ∧ kept ≠ resource) fun kept => lost kept ∨ kept = resource := by
  refine ⟨accounted.balanced, ?_, ?_, ?_⟩
  · intro kept
    rw [accounted.held kept]
    constructor
    · rintro (⟨other, others⟩ | gone)
      · by_cases same : kept = resource
        · exact .inr (.inr same)
        · exact .inl ⟨other, others, same⟩
      · exact .inr (.inl gone)
    · rintro (⟨other, others, -⟩ | gone | same)
      · exact .inl ⟨other, others⟩
      · exact .inr gone
      · exact .inl ⟨owner, same ▸ owns⟩
  · intro first second kept left right
    exact accounted.apart first second kept left.1 right.1
  · rintro other kept (gone | same) others
    · exact accounted.unowned other kept gone others.1
    · exact others.2 same

end Accounted

/-- The resources of the objects behind the handles of a table. -/
def TableOwns (owns : Object → Resource → Prop) (table : List (Option Object)) (handle : Nat) (resource : Resource) :
    Prop :=
  ∃ object, live table handle = some object ∧ owns object resource

section TableOwns

variable {owns : Object → Resource → Prop} {table : List (Option Object)} {handle other : Nat} {object : Object}

theorem TableOwns.nil (handle : Nat) (resource : Resource) : TableOwns owns [] handle resource ↔ False := by
  simp [TableOwns, live]

theorem TableOwns.append (table : List (Option Object)) (object : Object) (other : Nat) (resource : Resource) :
    TableOwns owns (table ++ [some object]) other resource ↔
      TableOwns owns table other resource ∨ other = table.length ∧ owns object resource := by
  rw [TableOwns, live_append]
  by_cases new : other = table.length
  · rw [if_pos new, TableOwns, new, live_length]
    simp
  · rw [if_neg new, TableOwns]
    simp [new]

theorem TableOwns.set (found : live table handle = some object) (entry : Option Object) (other : Nat)
    (resource : Resource) :
    TableOwns owns (table.set handle entry) other resource ↔
      if other = handle then ∃ object, entry = some object ∧ owns object resource
      else TableOwns owns table other resource := by
  rw [TableOwns, live_set (live_lt found)]
  split
  · exact Iff.rfl
  · exact Iff.rfl

theorem TableOwns.found (found : live table handle = some object) (resource : Resource) :
    TableOwns owns table handle resource ↔ owns object resource := by
  simp [TableOwns, found]

end TableOwns

end NpuDriver.Library
