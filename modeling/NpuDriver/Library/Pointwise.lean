import Mathlib.Data.List.Forall2

/-! Lists that are related element by element. -/

namespace NpuDriver.Library

variable {α β : Type} {R : α → β → Prop} {S : α → α → Prop}

/-- Every element of the second list has a partner in the first one. -/
theorem exists_partner {xs : List α} {ys : List β} (related : List.Forall₂ R xs ys) :
    ∀ y ∈ ys, ∃ x ∈ xs, R x y := by
  induction related with
  | nil => simp
  | cons head _ ih =>
    intro y member
    rcases List.mem_cons.mp member with rfl | later
    · exact ⟨_, List.mem_cons_self .., head⟩
    · obtain ⟨x, present, related⟩ := ih y later
      exact ⟨x, List.mem_cons_of_mem _ present, related⟩

theorem exists_image {xs : List α} {ys : List β} (related : List.Forall₂ R xs ys) :
    ∀ x ∈ xs, ∃ y ∈ ys, R x y :=
  fun x member => exists_partner related.flip x member

theorem pointwise_getElem? {xs : List α} {ys : List β} {index : Nat} (related : List.Forall₂ R xs ys)
    (found : ys[index]? = some y) : ∃ x, xs[index]? = some x ∧ R x y := by
  induction related generalizing index with
  | nil => simp at found
  | cons head _ ih =>
    cases index with
    | zero =>
      cases found
      exact ⟨_, rfl, head⟩
    | succ index => exact ih found

theorem pointwise_refl (refl : ∀ x, S x x) (xs : List α) : List.Forall₂ S xs xs :=
  List.forall₂_same.mpr fun x _ => refl x

theorem pointwise_trans (trans : ∀ x y z, S x y → S y z → S x z) {xs ys zs : List α}
    (first : List.Forall₂ S xs ys) (second : List.Forall₂ S ys zs) : List.Forall₂ S xs zs := by
  induction first generalizing zs with
  | nil => exact second
  | cons head _ ih =>
    cases second with
    | cons next rest => exact .cons (trans _ _ _ head next) (ih rest)

/-- A change of the elements that the relation to their partners survives. -/
theorem pointwise_through {T : α → β → Prop} (through : ∀ x y z, S x y → T x z → T y z) {xs ys : List α}
    {zs : List β} (changed : List.Forall₂ S xs ys) (related : List.Forall₂ T xs zs) : List.Forall₂ T ys zs := by
  induction changed generalizing zs with
  | nil => exact related
  | cons head _ ih =>
    cases related with
    | cons partner others => exact .cons (through _ _ _ head partner) (ih others)

/-- One element is replaced by one that it is related to. -/
theorem pointwise_set (refl : ∀ x, S x x) {xs : List α} {index : Nat} (present : xs[index]? = some x)
    (related : S x y) : List.Forall₂ S xs (xs.set index y) := by
  induction xs generalizing index with
  | nil => exact .nil
  | cons first rest ih =>
    cases index with
    | zero =>
      cases present
      exact .cons related (pointwise_refl refl rest)
    | succ index => exact .cons (refl first) (ih present)

/-- An element and its partner change together. -/
theorem pointwise_modify {T : α → β → Prop} {xs : List α} {ys : List β} {index : Nat}
    (related : List.Forall₂ T xs ys) (present : xs[index]? = some x) {f : β → β}
    (changes : ∀ y, T x y → T z (f y)) : List.Forall₂ T (xs.set index z) (ys.modify index f) := by
  induction related generalizing index with
  | nil => cases present
  | cons head tail ih =>
    cases index with
    | zero =>
      cases present
      exact .cons (changes _ head) tail
    | succ index => exact .cons head (ih present)

/-- The last element is replaced by one that it is related to. -/
theorem pointwise_last (refl : ∀ x, S x x) {xs : List α} (nonempty : xs ≠ [])
    (related : S (xs.getLast nonempty) y) : List.Forall₂ S xs (xs.dropLast ++ [y]) := by
  induction xs with
  | nil => exact absurd rfl nonempty
  | cons x rest ih =>
    cases rest with
    | nil => exact .cons related .nil
    | cons next others => exact .cons (refl x) (ih (List.cons_ne_nil next others) related)

/-- Related elements have the same image. -/
theorem pointwise_map_eq {γ : Type} {f : α → γ} {g : β → γ} (same : ∀ x y, R x y → f x = g y)
    {xs : List α} {ys : List β} (related : List.Forall₂ R xs ys) : xs.map f = ys.map g := by
  induction related with
  | nil => rfl
  | cons head _ ih => rw [List.map_cons, List.map_cons, same _ _ head, ih]

/-- Elements with the same images in the same places are related by having the same image. -/
theorem pointwise_of_map_eq {γ : Type} {f : α → γ} {g : β → γ} {xs : List α} {ys : List β}
    (same : xs.map f = ys.map g) : List.Forall₂ (fun x y => f x = g y) xs ys := by
  have equal : List.Forall₂ (fun u v => u = v) (xs.map f) (ys.map g) := by
    rw [same]
    exact pointwise_refl (fun _ => rfl) _
  rwa [List.forall₂_map_left_iff, List.forall₂_map_right_iff] at equal

/-- Partners of two lists, one behind the other. -/
theorem pointwise_append {first second : List α} {ys : List β} (related : List.Forall₂ R (first ++ second) ys) :
    ∃ front back, ys = front ++ back ∧ List.Forall₂ R first front ∧ List.Forall₂ R second back := by
  induction first generalizing ys with
  | nil => exact ⟨[], ys, rfl, .nil, related⟩
  | cons x rest ih =>
    cases related with
    | cons head tail =>
      obtain ⟨front, back, rfl, left, right⟩ := ih tail
      exact ⟨_ :: front, back, rfl, .cons head left, right⟩

/-- Partners of a list and its last member. -/
theorem pointwise_snoc {xs : List α} {x : α} {ys : List β} (related : List.Forall₂ R (xs ++ [x]) ys) :
    ∃ front last, ys = front ++ [last] ∧ List.Forall₂ R xs front ∧ R x last := by
  obtain ⟨front, back, rfl, others, ending⟩ := pointwise_append related
  cases ending with
  | cons head tail =>
    cases tail
    exact ⟨front, _, rfl, others, head⟩

/-- A list is accepted as a whole, or up to a first entry that is refused. -/
theorem first_refused (Accepts : α → Prop) (entries : List α) :
    (∀ entry ∈ entries, Accepts entry) ∨
      ∃ front refused back, entries = front ++ refused :: back ∧ (∀ entry ∈ front, Accepts entry) ∧
        ¬ Accepts refused := by
  induction entries with
  | nil => exact .inl nofun
  | cons entry rest ih =>
    by_cases accepted : Accepts entry
    · rcases ih with all | ⟨front, refused, back, split, before, first⟩
      · exact .inl (List.forall_mem_cons.mpr ⟨accepted, all⟩)
      · exact .inr ⟨entry :: front, refused, back, by rw [split, List.cons_append],
          List.forall_mem_cons.mpr ⟨accepted, before⟩, first⟩
    · exact .inr ⟨[], entry, rest, rfl, nofun, accepted⟩

end NpuDriver.Library
