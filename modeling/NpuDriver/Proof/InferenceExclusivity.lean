import NpuDriver.Library.Runs
import NpuDriver.LevelZero.HostParsedInferences

/-! A parsed inference belongs to one command at a time. -/

namespace NpuDriver

open Library

variable {Contents : Type}

/-- The calls that a holder makes itself. -/
def InferenceCall.Of (holder : Nat) : InferenceCall Contents → Prop
  | .acquire _ => False
  | .applyInputOutputs index _ => index = holder
  | .release index => index = holder

namespace ParserState

/-- Held inferences are the manager's and held once; nothing is held before the original is loaded, and
everything is loaded from then on. -/
structure Exclusive (state : ParserState Contents) : Prop where
  held : ∀ hpi, some hpi ∈ state.holders → hpi ∈ state.cached
  unshared : Unshared state.holders
  counted : ∀ hpi ∈ state.cached, hpi < state.created
  unloaded : state.manager.loaded = false → ∀ hpi, some hpi ∉ state.holders
  loaded : state.manager.loaded = true → ∀ hpi ∈ state.cached, (state.inferences hpi).isLoaded = true
  alone : state.manager.loaded = false → state.manager.hpis = []

variable {state : ParserState Contents}

theorem initial_exclusive (original : Contents) : (initial original).Exclusive where
  held _ member := by cases member
  unshared _ _ _ left := by cases left
  counted hpi member := by
    rw [List.mem_singleton.mp member]
    exact Nat.zero_lt_one
  unloaded _ _ member := by cases member
  loaded early := by cases early
  alone _ := rfl

/-- Loading changes no inference that is held. -/
theorem load_exclusive (exclusive : state.Exclusive) (replies : LoaderReplies Contents) :
    (state.load replies).2.Exclusive ∧ (state.load replies).2.holders = state.holders ∧
      (state.load replies).2.cached = state.cached ∧
      (state.load replies).2.manager.loaded = (state.load replies).1 ∧
      ∀ hpi, some hpi ∈ state.holders → (state.load replies).2.inferences hpi = state.inferences hpi := by
  rw [load]
  split
  · rename_i done
    exact ⟨exclusive, rfl, rfl, done, fun _ _ => rfl⟩
  · rename_i early
    rw [Bool.not_eq_true] at early
    refine ⟨?_, rfl, rfl, rfl, fun hpi held => absurd held (exclusive.unloaded early hpi)⟩
    constructor
    · exact exclusive.held
    · exact exclusive.unshared
    · exact exclusive.counted
    · exact fun _ => exclusive.unloaded early
    · intro success hpi member
      have head : hpi = state.manager.headHpi := by
        simpa [cached, exclusive.alone early] using member
      simp only [head, Function.update_self]
      exact success
    · exact fun _ => exclusive.alone early

/-- What an acquisition returns: a loaded inference of the manager that nobody holds. -/
structure Acquired (state : ParserState Contents) (hpi : Nat) (next : ParserState Contents) : Prop where
  exclusive : next.Exclusive
  holders : next.holders = state.holders
  cached : hpi ∈ next.cached
  loaded : next.manager.loaded = true
  unheld : some hpi ∉ state.holders
  kept : ∀ other, some other ∈ state.holders → next.inferences other = state.inferences other

theorem copyHead_acquired (exclusive : state.Exclusive) (loaded : state.manager.loaded = true)
    (replies : LoaderReplies Contents) :
    (∀ hpi, (state.copyHead replies).1 = .ok hpi → state.Acquired hpi (state.copyHead replies).2) ∧
      ((∀ hpi, (state.copyHead replies).1 ≠ .ok hpi) → (state.copyHead replies).2 = state) := by
  rw [copyHead]
  simp only
  split
  · exact ⟨fun _ failed => (by cases failed), fun _ => rfl⟩
  · exact ⟨fun _ failed => (by cases failed), fun _ => rfl⟩
  · rename_i contents copied
    refine ⟨fun hpi success => ?_, fun failed => absurd rfl (failed state.created)⟩
    cases success
    have fresh : ∀ hpi ∈ state.cached, hpi ≠ state.created := by
      intro hpi member
      exact Nat.ne_of_lt (exclusive.counted hpi member)
    have extended : ∀ hpi, hpi ∈ state.manager.headHpi :: (state.manager.hpis ++ [state.created]) ↔
        hpi ∈ state.cached ∨ hpi = state.created := by
      intro hpi
      rw [cached, ← List.cons_append, List.mem_append, List.mem_singleton]
    constructor
    · constructor
      · intro hpi held
        exact (extended hpi).mpr (.inl (exclusive.held hpi held))
      · exact exclusive.unshared
      · intro hpi member
        rcases (extended hpi).mp member with former | rfl
        · exact Nat.lt_succ_of_lt (exclusive.counted hpi former)
        · exact Nat.lt_succ_self _
      · exact exclusive.unloaded
      · intro _ hpi member
        rcases (extended hpi).mp member with former | rfl
        · simp only
          rw [Function.update_of_ne (fresh hpi former)]
          exact exclusive.loaded loaded hpi former
        · simp only
          rw [Function.update_self]
          exact exclusive.loaded loaded _ List.mem_cons_self
      · intro early
        exact absurd loaded (by simpa using early)
    · rfl
    · exact (extended state.created).mpr (.inr rfl)
    · exact loaded
    · intro held
      exact fresh _ (exclusive.held _ held) rfl
    · intro other held
      exact Function.update_of_ne (fresh other (exclusive.held other held)) ..

theorem acquire_head (state : ParserState Contents) (replies : LoaderReplies Contents) :
    (state.acquire replies).2.manager.headHpi = state.manager.headHpi := by
  have same : (state.load replies).2.manager.headHpi = state.manager.headHpi := by
    rw [load]
    split <;> rfl
  rw [acquire]
  rcases loading : state.load replies with ⟨_ | _, next⟩ <;> rw [loading] at same
  · exact same
  · simp only
    split
    · exact same
    · split
      · exact same
      · rw [copyHead]
        simp only
        split <;> exact same

theorem idle_unheld {hpi : Nat} (member : hpi ∈ state.cached) (idle : state.idle hpi = true) :
    some hpi ∉ state.holders :=
  unreferenced_of_idle member (eq_of_beq idle)

/-- `acquire` returns something exclusive or leaves all held inferences as they are. -/
theorem acquire_spec (exclusive : state.Exclusive) (replies : LoaderReplies Contents) :
    (∀ hpi, (state.acquire replies).1 = .ok hpi → state.Acquired hpi (state.acquire replies).2) ∧
      ((∀ hpi, (state.acquire replies).1 ≠ .ok hpi) →
        (state.acquire replies).2.Exclusive ∧ (state.acquire replies).2.holders = state.holders ∧
          ∀ other, some other ∈ state.holders →
            (state.acquire replies).2.inferences other = state.inferences other) := by
  obtain ⟨kept, holders, cached, flag, same⟩ := load_exclusive exclusive replies
  rw [acquire]
  rcases loading : state.load replies with ⟨_ | _, next⟩ <;> rw [loading] at kept holders cached flag same
  · exact ⟨fun _ failed => (by cases failed), fun _ => ⟨kept, holders, same⟩⟩
  · have returned : ∀ hpi ∈ next.cached, next.idle hpi = true → state.Acquired hpi next := by
      intro hpi member idle
      exact ⟨kept, holders, member, flag, holders ▸ idle_unheld member idle, same⟩
    simp only
    split
    · rename_i idle
      refine ⟨fun hpi success => ?_, fun failed => absurd rfl (failed _)⟩
      cases success
      exact returned _ List.mem_cons_self idle
    · cases found : next.manager.hpis.find? next.idle with
      | some other =>
        refine ⟨fun hpi success => ?_, fun failed => absurd rfl (failed _)⟩
        cases success
        exact returned _ (List.mem_cons_of_mem _ (List.mem_of_find?_eq_some found)) (List.find?_some found)
      | none =>
        obtain ⟨copied, unchanged⟩ := copyHead_acquired kept flag replies
        refine ⟨fun hpi success => ?_, fun failed => ?_⟩
        · have acquired := copied hpi success
          exact { acquired with
            holders := acquired.holders.trans holders
            unheld := holders ▸ acquired.unheld
            kept := fun other held => (acquired.kept other (holders ▸ held)).trans (same other held) }
        · simp only
          rw [unchanged failed]
          exact ⟨kept, holders, same⟩

theorem Acquired.held {hpi : Nat} {next : ParserState Contents} (acquired : state.Acquired hpi next) :
    ({ next with holders := next.holders ++ [some hpi] } : ParserState Contents).Exclusive := by
  constructor
  · intro other held
    rcases List.mem_append.mp held with former | new
    · exact acquired.exclusive.held other former
    · rw [Option.some.inj (List.mem_singleton.mp new)]
      exact acquired.cached
  · intro first second other left right
    have unheld : some hpi ∉ next.holders := acquired.holders ▸ acquired.unheld
    simp only [List.getElem?_append, List.getElem?_singleton] at left right
    have position : ∀ index, (if index < next.holders.length then next.holders[index]?
        else if index - next.holders.length = 0 then some (some hpi) else none) = some (some other) →
        next.holders[index]? = some (some other) ∧ other ≠ hpi ∨ index = next.holders.length ∧ other = hpi := by
      intro index found
      split at found
      · refine .inl ⟨found, ?_⟩
        rintro rfl
        exact unheld (List.mem_of_getElem? found)
      · split at found
        · exact .inr ⟨by omega, (Option.some.inj (Option.some.inj found)).symm⟩
        · cases found
    rcases position first left with ⟨older, different⟩ | ⟨end_, new⟩
    · rcases position second right with ⟨later, -⟩ | ⟨-, new⟩
      · exact acquired.exclusive.unshared first second other older later
      · exact absurd new different
    · rcases position second right with ⟨-, different⟩ | ⟨last, -⟩
      · exact absurd new different
      · rw [end_, last]
  · exact acquired.exclusive.counted
  · intro early
    exact absurd acquired.loaded (by simpa using early)
  · exact acquired.exclusive.loaded
  · exact acquired.exclusive.alone

theorem hold_exclusive (exclusive : state.Exclusive) (replies : LoaderReplies Contents) :
    (state.hold replies).Exclusive := by
  obtain ⟨success, failure⟩ := acquire_spec exclusive replies
  rw [hold]
  rcases acquired : state.acquire replies with ⟨_ | hpi, next⟩ <;> rw [acquired] at success failure
  · exact (failure fun _ success => by cases success).1
  · exact (success hpi rfl).held

theorem applyInputOutputs_exclusive (exclusive : state.Exclusive) (holder : Nat) (patch : Contents → Bool × Contents) :
    (state.applyInputOutputs holder patch).2.Exclusive := by
  rw [applyInputOutputs]
  split
  · rename_i hpi held
    exact { exclusive with
      loaded := by
        intro loaded other member
        by_cases same : other = hpi
        · simp only [same, Function.update_self]
          exact exclusive.loaded loaded hpi (exclusive.held hpi (List.mem_of_getElem? held))
        · simp only
          rw [Function.update_of_ne same]
          exact exclusive.loaded loaded other member }
  · exact exclusive

theorem release_exclusive (exclusive : state.Exclusive) (holder : Nat) : (state.release holder).Exclusive := by
  have fewer : ∀ hpi, some hpi ∈ state.holders.set holder none → some hpi ∈ state.holders := by
    intro hpi held
    rcases List.mem_or_eq_of_mem_set held with former | new
    · exact former
    · cases new
  exact { exclusive with
    held := fun hpi held => exclusive.held hpi (fewer hpi held)
    unshared := exclusive.unshared.set holder fun _ new => by cases new
    unloaded := fun early hpi held => exclusive.unloaded early hpi (fewer hpi held) }

theorem step_exclusive (state : ParserState Contents) (call : InferenceCall Contents) (exclusive : state.Exclusive) :
    (state.step call).Exclusive := by
  cases call with
  | acquire replies => exact hold_exclusive exclusive replies
  | applyInputOutputs holder patch => exact applyInputOutputs_exclusive exclusive holder patch
  | release holder => exact release_exclusive exclusive holder

/-- The calls of others change neither what a holder holds nor the inference itself. -/
theorem step_frame (exclusive : state.Exclusive) (call : InferenceCall Contents) {holder hpi : Nat}
    (held : state.holders[holder]? = some (some hpi)) (foreign : ¬ call.Of holder) :
    (state.step call).inferences hpi = state.inferences hpi ∧
      (state.step call).holders[holder]? = some (some hpi) := by
  have member : some hpi ∈ state.holders := List.mem_of_getElem? held
  cases call with
  | acquire replies =>
    obtain ⟨success, failure⟩ := acquire_spec exclusive replies
    rw [step, hold]
    rcases acquired : state.acquire replies with ⟨_ | own, next⟩ <;> rw [acquired] at success failure
    · obtain ⟨-, holders, kept⟩ := failure fun _ success => by cases success
      exact ⟨kept hpi member, holders ▸ held⟩
    · have exclusive := success own rfl
      refine ⟨exclusive.kept hpi member, ?_⟩
      simp only
      rw [exclusive.holders]
      exact List.getElem?_append_left (List.getElem?_eq_some_iff.mp held).1 ▸ held
  | applyInputOutputs index patch =>
    rw [step, applyInputOutputs]
    split
    · rename_i own patched
      have apart : hpi ≠ own := by
        rintro rfl
        exact foreign (exclusive.unshared index holder hpi patched held)
      exact ⟨Function.update_of_ne apart .., held⟩
    · exact ⟨rfl, held⟩
  | release index =>
    refine ⟨rfl, ?_⟩
    change (state.holders.set index none)[holder]? = _
    rw [List.getElem?_set_ne foreign, held]

theorem run_frame (exclusive : state.Exclusive) (calls : List (InferenceCall Contents)) {holder hpi : Nat}
    (held : state.holders[holder]? = some (some hpi)) (foreign : ∀ call ∈ calls, ¬ call.Of holder) :
    (runFrom step state calls).inferences hpi = state.inferences hpi ∧
      (runFrom step state calls).holders[holder]? = some (some hpi) := by
  induction calls generalizing state with
  | nil => exact ⟨rfl, held⟩
  | cons call rest ih =>
    obtain ⟨first, others⟩ := List.forall_mem_cons.mp foreign
    obtain ⟨same, still⟩ := step_frame exclusive call held first
    obtain ⟨later, last⟩ := ih (step_exclusive state call exclusive) still others
    exact ⟨later.trans same, last⟩

/-- The creation of a command is a run of calls that are its own. -/
theorem createInferenceExecuteCommand_run (state : ParserState Contents) (replies : CreationReplies Contents) :
    ∃ calls : List (InferenceCall Contents),
      state.createInferenceExecuteCommand replies = runFrom step state calls ∧
        ∀ call ∈ calls, ∀ holder < state.holders.length, ¬ call.Of holder := by
  have own : ∀ (calls : List (InferenceCall Contents)),
      (∀ call ∈ calls, call = .acquire replies.loader ∨ call.Of state.holders.length) →
        ∀ call ∈ calls, ∀ holder < state.holders.length, ¬ call.Of holder := by
    intro calls listed call member holder before addressed
    rcases listed call member with rfl | new
    · exact addressed
    · cases call with
      | acquire _ => exact addressed
      | applyInputOutputs index _ => exact Nat.ne_of_lt before (addressed.symm.trans new)
      | release index => exact Nat.ne_of_lt before (addressed.symm.trans new)
  rw [createInferenceExecuteCommand]
  split
  · exact ⟨[], rfl, own [] nofun⟩
  · simp only
    split
    · exact ⟨[.acquire replies.loader], rfl, own _ (by simp)⟩
    · split
      · exact ⟨[.acquire replies.loader, .release state.holders.length], rfl, own _ (by simp [InferenceCall.Of])⟩
      · split
        · exact ⟨[.acquire replies.loader, .applyInputOutputs state.holders.length replies.patch], rfl,
            own _ (by simp [InferenceCall.Of])⟩
        · exact ⟨[.acquire replies.loader, .applyInputOutputs state.holders.length replies.patch,
            .release state.holders.length], rfl, own _ (by simp [InferenceCall.Of])⟩

end ParserState

open ParserState in
/-- In every state that calls from any commands lead to: what `acquire` returns is loaded, after the original
was, and held by nobody; no two commands hold one inference; and no later calls of others, the creation of
commands included, change the inference that a command holds. -/
theorem inferences_exclusive (original : Contents) (calls : List (InferenceCall Contents)) :
    let state := runFrom step (initial original) calls
    (∀ replies hpi, (state.acquire replies).1 = .ok hpi →
      some hpi ∉ state.holders ∧ ((state.acquire replies).2.inferences hpi).isLoaded = true ∧
        ((state.acquire replies).2.inferences state.manager.headHpi).isLoaded = true) ∧
    (∀ (first second hpi : Nat), state.holders[first]? = some (some hpi) →
      state.holders[second]? = some (some hpi) → first = second) ∧
    (∀ later (holder hpi : Nat), state.holders[holder]? = some (some hpi) → (∀ call ∈ later, ¬ call.Of holder) →
      (runFrom step state later).inferences hpi = state.inferences hpi) ∧
    ∀ replies (holder hpi : Nat), state.holders[holder]? = some (some hpi) →
      (state.createInferenceExecuteCommand replies).inferences hpi = state.inferences hpi := by
  intro state
  have exclusive : state.Exclusive := run_invariant step_exclusive (initial_exclusive original) calls
  refine ⟨fun replies hpi success => ?_, exclusive.unshared, fun later holder hpi held foreign => ?_,
    fun replies holder hpi held => ?_⟩
  · have acquired := (acquire_spec exclusive replies).1 hpi success
    have everything := acquired.exclusive.loaded acquired.loaded
    refine ⟨acquired.unheld, everything hpi acquired.cached, everything _ ?_⟩
    exact acquire_head state replies ▸ List.mem_cons_self
  · exact (run_frame exclusive later held foreign).1
  · obtain ⟨created, same, own⟩ := createInferenceExecuteCommand_run state replies
    rw [same]
    have before : holder < state.holders.length := (List.getElem?_eq_some_iff.mp held).1
    exact (run_frame exclusive created held fun call member => own call member holder before).1

/-- A loader whose inferences are the number of times that they were patched. -/
def countingLoader : LoaderReplies Nat := ⟨fun count => (true, count), fun count => .copied count⟩

/-- A second command gets a copy, and the inference of a destroyed one is used again. -/
example :
    let commands := runFrom ParserState.step (.initial 0)
      [.acquire countingLoader, .acquire countingLoader, .applyInputOutputs 1 (fun count => (true, count + 1)),
        .release 0, .acquire countingLoader]
    commands.holders = [none, some 1, some 0] ∧ (commands.inferences 0).contents = 0 ∧
      (commands.inferences 1).contents = 1 := by
  decide

end NpuDriver
