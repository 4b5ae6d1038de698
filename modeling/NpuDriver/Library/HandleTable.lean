import Mathlib.Data.List.Basic

/-! Objects by the order of their creation, those that were destroyed as `none`. -/

namespace NpuDriver.Library

variable {α β γ δ : Type} {table : List (Option α)} {handle other : Nat} {entry : Option α} {object : α}

/-- The object behind a handle. -/
def live (table : List (Option α)) (handle : Nat) : Option α := table[handle]?.join

/-- A call through a handle. -/
def withLive (table : List (Option α)) (handle : Nat) (absent : γ) (call : α → γ) : γ :=
  match live table handle with
  | some object => call object
  | none => absent

theorem live_lt (found : live table handle = some object) : handle < table.length := by
  by_contra beyond
  rw [live, List.getElem?_eq_none (Nat.not_lt.mp beyond)] at found
  cases found

theorem live_length (table : List (Option α)) : live table table.length = none := by
  rw [live, List.getElem?_eq_none (Nat.le_refl _)]
  rfl

theorem live_append (table : List (Option α)) (entry : Option α) (other : Nat) :
    live (table ++ [entry]) other = if other = table.length then entry else live table other := by
  unfold live
  split
  · rename_i new
    rw [new, List.getElem?_concat_length]
    rfl
  · rename_i old
    rcases Nat.lt_or_ge other table.length with below | beyond
    · rw [List.getElem?_append_left below]
    · rw [List.getElem?_eq_none, List.getElem?_eq_none beyond]
      rw [List.length_append, List.length_singleton]
      omega

/-- Objects keep their handles when another one comes. -/
theorem live_append_of_live (found : live table handle = some object) (entry : Option α) :
    live (table ++ [entry]) handle = some object := by
  rw [live_append, if_neg (Nat.ne_of_lt (live_lt found)), found]

theorem live_set (below : handle < table.length) (entry : Option α) (other : Nat) :
    live (table.set handle entry) other = if other = handle then entry else live table other := by
  unfold live
  split
  · rename_i same
    rw [same, List.getElem?_set_self below]
    rfl
  · rename_i different
    rw [List.getElem?_set_ne (Ne.symm different)]

theorem set_live (found : live table handle = some object) : table.set handle (some object) = table := by
  have entry : table[handle]? = some (some object) := Option.join_eq_some_iff.mp found
  apply List.ext_getElem?
  intro other
  rw [List.getElem?_set]
  split
  · rename_i same
    rw [if_pos (live_lt found), ← same, entry]
  · rfl

theorem live_map (change : α → β) (table : List (Option α)) (handle : Nat) :
    live (table.map (Option.map change)) handle = (live table handle).map change := by
  unfold live
  rw [List.getElem?_map]
  cases table[handle]? with
  | none => rfl
  | some entry =>
    cases entry with
    | none => rfl
    | some object => rfl

/-- Two tables with related objects under the same handles. -/
structure TablesRelated (R : α → β → Prop) (left : List (Option α)) (right : List (Option β)) : Prop where
  length : left.length = right.length
  rows : ∀ handle, Option.Rel R (live left handle) (live right handle)

namespace TablesRelated

variable {R S : α → β → Prop} {left : List (Option α)} {right : List (Option β)}

theorem nil (R : α → β → Prop) : TablesRelated R [] [] := ⟨rfl, fun _ => .none⟩

theorem append (related : TablesRelated R left right) {object : α} {partner : β} (partners : R object partner) :
    TablesRelated R (left ++ [some object]) (right ++ [some partner]) := by
  refine ⟨by rw [List.length_append, List.length_append, related.length]; rfl, ?_⟩
  intro handle
  rw [live_append, live_append, related.length]
  split
  · exact .some partners
  · exact related.rows handle

theorem set (related : TablesRelated R left right) (below : handle < left.length) {entry : Option α}
    {partner : Option β} (partners : Option.Rel R entry partner) :
    TablesRelated R (left.set handle entry) (right.set handle partner) := by
  refine ⟨by rw [List.length_set, List.length_set, related.length], ?_⟩
  intro other
  rw [live_set below, live_set (related.length ▸ below)]
  split
  · exact partners
  · exact related.rows other

/-- Another relation that holds of what the table has. -/
theorem mono (related : TablesRelated R left right)
    (implies : ∀ handle object partner, live left handle = some object → R object partner → S object partner) :
    TablesRelated S left right := by
  refine ⟨related.length, ?_⟩
  intro handle
  have row := related.rows handle
  generalize live right handle = partner at row ⊢
  cases found : live left handle with
  | none =>
    rw [found] at row
    cases row
    exact .none
  | some object =>
    rw [found] at row
    cases row with
    | some partners => exact .some (implies handle object _ found partners)

/-- An object is replaced, and another relation holds of the others. -/
theorem replace (related : TablesRelated R left right) (below : handle < left.length) {entry : Option α}
    {partner : Option β} (partners : Option.Rel S entry partner)
    (implies : ∀ other object partner, other ≠ handle → live left other = some object → R object partner →
      S object partner) : TablesRelated S (left.set handle entry) (right.set handle partner) := by
  refine ⟨by rw [List.length_set, List.length_set, related.length], ?_⟩
  intro other
  rw [live_set below, live_set (related.length ▸ below)]
  split
  · exact partners
  · rename_i different
    have row := related.rows other
    generalize live right other = partner at row ⊢
    cases found : live left other with
    | none =>
      rw [found] at row
      cases row
      exact .none
    | some object =>
      rw [found] at row
      cases row with
      | some partners => exact .some (implies other object _ different found partners)

/-- All objects on one side change. -/
theorem map_right (related : TablesRelated R left right) {ε : Type} {T : α → ε → Prop} (change : β → ε)
    (implies : ∀ handle object partner, live left handle = some object → R object partner → T object (change partner)) :
    TablesRelated T left (right.map (Option.map change)) := by
  refine ⟨by rw [List.length_map, related.length], ?_⟩
  intro handle
  have row := related.rows handle
  rw [live_map]
  generalize live right handle = partner at row ⊢
  cases found : live left handle with
  | none =>
    rw [found] at row
    cases row
    exact .none
  | some object =>
    rw [found] at row
    cases row with
    | some partners => exact .some (implies handle object _ found partners)

theorem found (related : TablesRelated R left right) {object : α} (found : live left handle = some object) :
    ∃ partner, live right handle = some partner ∧ R object partner := by
  have row := related.rows handle
  rw [found] at row
  generalize live right handle = partner at row ⊢
  cases row with
  | some partners => exact ⟨_, rfl, partners⟩

theorem partner (related : TablesRelated R left right) {partner : β} (present : live right handle = some partner) :
    ∃ object, live left handle = some object ∧ R object partner := by
  have row := related.rows handle
  rw [present] at row
  generalize live left handle = object at row ⊢
  cases row with
  | some partners => exact ⟨_, rfl, partners⟩

theorem absent (related : TablesRelated R left right) (absent : live left handle = none) :
    live right handle = none := by
  have row := related.rows handle
  rw [absent] at row
  generalize live right handle = partner at row ⊢
  cases row
  rfl

/-- Calls through a handle do alike when they do on related objects. -/
theorem withLive (alike : γ → δ → Prop) (related : TablesRelated R left right) (handle : Nat) {nothing : γ} {nobody : δ}
    {call : α → γ} {partnerCall : β → δ} (without : alike nothing nobody)
    (calls : ∀ object partner, live left handle = some object → R object partner →
      alike (call object) (partnerCall partner)) :
    alike (Library.withLive left handle nothing call) (Library.withLive right handle nobody partnerCall) := by
  unfold Library.withLive
  cases found : live left handle with
  | none =>
    rw [related.absent found]
    exact without
  | some object =>
    obtain ⟨partner, present, partners⟩ := related.found found
    rw [present]
    exact calls object partner found partners

end TablesRelated

end NpuDriver.Library
