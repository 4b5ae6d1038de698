import Mathlib.Data.List.Basic

/-! A word that closing a ticket raises: while it gates the tickets, whoever finds it raised knows that none is
open. -/

namespace NpuDriver.Library

variable {Ticket : Type} {raised raised' : Prop} {closed : Ticket → Prop} {tickets : List Ticket} {ticket : Ticket}

/-- At most one ticket is open, and none while the word is raised. -/
structure Gated (raised : Prop) (closed : Ticket → Prop) (tickets : List Ticket) : Prop where
  raised : raised → ∀ ticket ∈ tickets, closed ticket
  single : tickets.Pairwise fun first second => closed first ∨ closed second

theorem gated_nil : Gated raised closed ([] : List Ticket) := ⟨fun _ => nofun, .nil⟩

/-- The word may change unless that raises it over an open ticket. -/
theorem Gated.word (gated : Gated raised closed tickets)
    (change : raised' → raised ∨ ∀ ticket ∈ tickets, closed ticket) : Gated raised' closed tickets :=
  ⟨fun up => (change up).elim gated.raised id, gated.single⟩

/-- A ticket is opened behind closed ones, while the word is down. -/
theorem gated_snoc (down : ¬ raised) (others : ∀ other ∈ tickets, closed other) :
    Gated raised closed (tickets ++ [ticket]) := by
  refine ⟨fun up => absurd up down, List.pairwise_append.mpr ⟨?_, List.pairwise_singleton _ _, ?_⟩⟩
  · exact List.pairwise_of_forall_mem_list fun first member _ _ => .inl (others first member)
  · exact fun first member _ _ => .inl (others first member)

theorem Gated.snoc_closed (gated : Gated raised closed tickets) (done : closed ticket) :
    Gated raised closed (tickets ++ [ticket]) := by
  refine ⟨fun up other member => ?_, ?_⟩
  · rcases List.mem_append.mp member with old | new
    · exact gated.raised up other old
    · exact List.mem_singleton.mp new ▸ done
  · refine List.pairwise_append.mpr ⟨gated.single, List.pairwise_singleton _ _, ?_⟩
    exact fun _ _ other member => .inr (List.mem_singleton.mp member ▸ done)

/-- While one ticket is open, all the others are closed. -/
theorem Gated.others {position other : Nat} {second : Ticket} (gated : Gated raised closed tickets)
    (present : tickets[position]? = some ticket) (unclosed : ¬ closed ticket) (apart : other ≠ position)
    (found : tickets[other]? = some second) : closed second := by
  obtain ⟨first_lt, rfl⟩ := List.getElem?_eq_some_iff.mp present
  obtain ⟨second_lt, rfl⟩ := List.getElem?_eq_some_iff.mp found
  have pairs := List.pairwise_iff_getElem.mp gated.single
  rcases Nat.lt_or_gt_of_ne apart with before | after
  · exact (pairs other position second_lt first_lt before).resolve_right unclosed
  · exact (pairs position other first_lt second_lt after).resolve_left unclosed

/-- A ticket that stays closed if it was may change. -/
theorem Gated.set {position : Nat} {changed : Ticket} (gated : Gated raised closed tickets)
    (present : tickets[position]? = some ticket) (keeps : closed ticket → closed changed) :
    Gated raised closed (tickets.set position changed) := by
  obtain ⟨inside, rfl⟩ := List.getElem?_eq_some_iff.mp present
  refine ⟨fun up other member => ?_, ?_⟩
  · rcases List.mem_or_eq_of_mem_set member with old | rfl
    · exact gated.raised up other old
    · exact keeps (gated.raised up _ (List.getElem_mem inside))
  · have pairs := List.pairwise_iff_getElem.mp gated.single
    refine List.pairwise_iff_getElem.mpr fun first second first_lt second_lt before => ?_
    rw [List.length_set] at first_lt second_lt
    have pair := pairs first second first_lt second_lt before
    rw [List.getElem_set, List.getElem_set]
    by_cases left : position = first
    · subst left
      rw [if_pos rfl, if_neg (by omega)]
      exact pair.imp keeps id
    · rw [if_neg left]
      by_cases right : position = second
      · subst right
        rw [if_pos rfl]
        exact pair.imp id keeps
      · rw [if_neg right]
        exact pair

/-- When the open ticket has been closed, all are. -/
theorem Gated.close {position : Nat} {changed : Ticket} (gated : Gated raised closed tickets)
    (present : tickets[position]? = some ticket) (unclosed : ¬ closed ticket) (closes : closed changed) :
    ∀ other ∈ tickets.set position changed, closed other := by
  intro other member
  obtain ⟨place, found⟩ := List.mem_iff_getElem?.mp member
  by_cases same : place = position
  · subst same
    obtain ⟨inside, -⟩ := List.getElem?_eq_some_iff.mp present
    rw [List.getElem?_set_self inside] at found
    exact Option.some.inj found ▸ closes
  · rw [List.getElem?_set_ne (Ne.symm same)] at found
    exact gated.others present unclosed same found

end NpuDriver.Library
