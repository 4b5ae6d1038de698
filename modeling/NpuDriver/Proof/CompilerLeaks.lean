import NpuDriver.Library.Ownership
import NpuDriver.LevelZero.CompilerHandles

/-! The handles of the compiler library: who has them, and which calls lose one. -/

namespace NpuDriver

open Library

/-- The handles of a query network. -/
def QueryNetwork.Owns (network : QueryNetwork) (handle : VclHandle) : Prop :=
  handle = network.compiler ∨ handle = network.query

namespace VclState

variable {state : VclState} {lost : VclHandle → Prop} {number : Nat} {network : QueryNetwork}

abbrev Owns (state : VclState) : Nat → VclHandle → Prop := TableOwns QueryNetwork.Owns state.queries

/-- A call that leaves a handle behind: the compiler of a query network that the library refuses, or the decoded
profiling of a size that does not fit. -/
def Leaks (state : VclState) : VclCall → Prop
  | .createQuery ngraphLite deviceContext create query =>
    ngraphLite = true ∧ deviceContext = true ∧ state.isVclCompilerApiCompatible = true ∧
      state.reply create = .SUCCESS ∧ query ≠ .SUCCESS
  | .getDecodedProfilingBuffer create decode size pSize =>
    state.compiler.loaded = true ∧ state.isVclProfilingApiCompatible = true ∧ create = .SUCCESS ∧ decode = .SUCCESS ∧
      (pSize = 0 ∨ size < pSize) ∧ UINT32_MAX < size
  | _ => False

/-- Each handle that is open was opened before, and is that of a query network or lost. -/
structure Sound (state : VclState) (lost : VclHandle → Prop) : Prop where
  accounted : Accounted state.log state.Owns lost
  numbered : ∀ handle, Held state.log handle → handle.number < state.opened
  distinct : ∀ query network, live state.queries query = some network → network.compiler ≠ network.query

theorem Sound.fresh (sound : Sound state lost) (kind : VclHandleKind) : ¬ Held state.log ⟨kind, state.opened⟩ :=
  fun held => Nat.lt_irrefl _ (sound.numbered _ held)

/-- A handle that is opened and closed by the same call. -/
theorem Sound.borrow (sound : Sound state lost) (kind : VclHandleKind) :
    Sound ((state.openHandle kind).2.closeHandle (state.openHandle kind).1) lost := by
  refine ⟨sound.accounted.borrow (sound.fresh kind), ?_, sound.distinct⟩
  rintro handle ⟨different, same | held⟩
  · exact absurd same different
  · exact Nat.lt_succ_of_lt (sound.numbered handle held)

/-- A handle that is opened and never closed. -/
theorem Sound.abandon (sound : Sound state lost) (kind : VclHandleKind) :
    Sound (state.openHandle kind).2 fun handle => lost handle ∨ handle = ⟨kind, state.opened⟩ := by
  refine ⟨sound.accounted.abandon (sound.fresh kind), ?_, sound.distinct⟩
  rintro handle (rfl | held)
  · exact Nat.lt_succ_self _
  · exact Nat.lt_succ_of_lt (sound.numbered handle held)

/-- What the library reported is no part of the accounts. -/
theorem Sound.reported (sound : Sound state lost) (compiler : Compiler) (profilingMajor : UInt16) :
    Sound { state with compiler := compiler, profilingMajor := profilingMajor } lost :=
  ⟨sound.accounted, sound.numbered, sound.distinct⟩

theorem Sound.withCompiler (sound : Sound state lost) (create work : VclResult) :
    Sound (state.withCompiler create work).2 lost := by
  unfold VclState.withCompiler compilerCreate
  split
  · exact sound
  · rename_i created
    split at created
    · cases created
    · split at created
      · cases created
        exact sound.borrow .compiler
      · cases created

theorem Sound.compilerInit (sound : Sound state lost) (version : VclResult × UInt16 × UInt16) (create : VclResult)
    (properties : VclResult × CompilerProperties) :
    Sound (state.compilerInit version create properties).2 lost := by
  unfold VclState.compilerInit
  split
  · exact sound
  · split
    · exact sound
    · have versioned := (sound.reported { state.compiler with apiMajor := version.2.1 } version.2.2).withCompiler create
        properties.1
      dsimp only
      split
      · rename_i answered
        rw [answered] at versioned
        exact versioned.reported _ _
      · rename_i answered
        rw [answered] at versioned
        exact versioned

/-- The handles of a query network that comes to the table. -/
theorem Sound.adopt (sound : Sound state lost) :
    Sound
      { ((state.openHandle .compiler).2.openHandle .query).2 with
        queries := state.queries ++ [some ⟨(state.openHandle .compiler).1, ((state.openHandle .compiler).2.openHandle .query).1⟩] }
      lost := by
  have compiler := sound.accounted.obtain (sound.fresh .compiler) state.queries.length
  have distinct : ¬ Held (.obtained ⟨.compiler, state.opened⟩ :: state.log) ⟨.query, state.opened + 1⟩ := by
    rintro (absent | held)
    · cases absent
    · have below := sound.numbered _ held
      simp only at below
      omega
  have both := compiler.obtain distinct state.queries.length
  refine ⟨?_, ?_, ?_⟩
  · apply both.congr
    · intro other handle
      apply (TableOwns.append state.queries _ other handle).trans
      simp only [QueryNetwork.Owns, VclState.openHandle]
      tauto
    · intro handle
      exact Iff.rfl
  · rintro handle (rfl | rfl | held)
    · exact Nat.lt_succ_self _
    · exact Nat.lt_succ_of_lt (Nat.lt_succ_self _)
    · exact Nat.lt_succ_of_lt (Nat.lt_succ_of_lt (sound.numbered handle held))
  · intro query network found
    rw [live_append] at found
    split at found
    · cases found
      simp [VclState.openHandle]
    · exact sound.distinct query network found

theorem Sound.destroy (sound : Sound state lost) {query : Nat} (found : live state.queries query = some network) :
    Sound
      { (state.closeHandle network.query).closeHandle network.compiler with queries := state.queries.set query none }
      lost := by
  have query' := sound.accounted.release query ⟨network, found, .inr rfl⟩
  have both := query'.release query ⟨⟨network, found, .inl rfl⟩, sound.distinct query network found⟩
  refine ⟨?_, ?_, ?_⟩
  · apply both.congr
    · intro other handle
      apply (TableOwns.set found none other handle).trans
      split
      · rename_i self
        subst self
        constructor
        · rintro ⟨object, absent, -⟩
          cases absent
        · rintro ⟨⟨owns, second⟩, first⟩
          rcases (TableOwns.found found handle).mp owns with compiler | query
          · exact absurd compiler first
          · exact absurd query second
      · rename_i different
        constructor
        · intro owns
          refine ⟨⟨owns, ?_⟩, ?_⟩
          · rintro rfl
            exact different (sound.accounted.apart other query _ owns ⟨network, found, .inr rfl⟩)
          · rintro rfl
            exact different (sound.accounted.apart other query _ owns ⟨network, found, .inl rfl⟩)
        · intro owns
          exact owns.1.1
    · intro handle
      exact Iff.rfl
  · intro handle held
    exact sound.numbered handle held.2.2
  · intro other object member
    rw [live_set (live_lt found)] at member
    split at member
    · cases member
    · exact sound.distinct other object member

theorem Sound.getDecodedProfilingBuffer (sound : Sound state lost) {create decode : VclResult} {size pSize : Nat}
    (closed : ¬ state.Leaks (.getDecodedProfilingBuffer create decode size pSize)) :
    Sound (state.getDecodedProfilingBuffer create decode size pSize).2 lost := by
  unfold VclState.getDecodedProfilingBuffer
  split
  · exact sound
  · rename_i loaded
    split
    · exact sound
    · rename_i compatible
      split
      · exact sound
      · rename_i created
        dsimp only
        split
        · exact sound.borrow .profiling
        · rename_i decoded
          split
          · rename_i thrown
            have overflow : UINT32_MAX < size := by
              by_contra fits
              rw [safeCastU32_of_le (Nat.not_lt.mp fits)] at thrown
              simp at thrown
            simp only [Bool.not_eq_true', Bool.not_eq_false] at loaded compatible
            exact absurd ⟨loaded, compatible, not_not.mp created, not_not.mp decoded, thrown.1, overflow⟩ closed
          · exact sound.borrow .profiling

theorem Sound.createQuery (sound : Sound state lost) {ngraphLite deviceContext : Bool} {create query : VclResult}
    (closed : ¬ state.Leaks (.createQuery ngraphLite deviceContext create query)) :
    Sound (state.createQuery ngraphLite deviceContext create query).2 lost := by
  unfold VclState.createQuery
  split
  · exact sound
  · rename_i format
    split
    · exact sound
    · rename_i compatible
      split
      · exact sound
      · rename_i context
        simp only [Bool.not_eq_true', Bool.not_eq_false] at format compatible context
        rw [compilerCreate, compatible]
        simp only [Bool.not_true, Bool.false_eq_true, ↓reduceIte]
        by_cases created : state.reply create = .SUCCESS
        · rw [if_pos created]
          dsimp only
          split
          · rename_i refused
            exact absurd ⟨format, context, compatible, created, refused⟩ closed
          · exact sound.adopt
        · rw [if_neg created]
          exact sound

/-- Each call keeps the accounts, and loses a handle exactly when it leaks. -/
theorem Sound.step (sound : Sound state lost) (call : VclCall) :
    ∃ others, Sound (state.step call).2 others ∧ ((∃ handle, others handle) ↔ (∃ handle, lost handle) ∨ state.Leaks call) := by
  have kept : ∀ {next : VclState}, Sound next lost → ¬ state.Leaks call →
      ∃ others, Sound next others ∧ ((∃ handle, others handle) ↔ (∃ handle, lost handle) ∨ state.Leaks call) :=
    fun sound closed => ⟨lost, sound, by simp [closed]⟩
  cases call with
  | compilerInit version create properties => exact kept (sound.compilerInit version create properties) id
  | getCompiledBlob create executable =>
    refine kept ?_ id
    simp only [VclState.step, getCompiledBlob]
    split
    · exact sound
    · exact sound.withCompiler create executable
  | getSupportedOptions vpuDevice create options =>
    refine kept ?_ id
    simp only [VclState.step, VclState.getSupportedOptions]
    split_ifs
    · exact sound
    · exact sound
    · exact sound
    · exact sound.withCompiler create options
  | isOptionSupported vpuDevice create option =>
    refine kept ?_ id
    simp only [VclState.step, VclState.isOptionSupported]
    split_ifs
    · exact sound
    · exact sound
    · exact sound
    · exact sound.withCompiler create option
  | getDecodedProfilingBuffer create decode size pSize =>
    by_cases leaks : state.Leaks (.getDecodedProfilingBuffer create decode size pSize)
    · refine ⟨fun handle => lost handle ∨ handle = ⟨.profiling, state.opened⟩, ?_,
        iff_of_true ⟨_, .inr rfl⟩ (.inr leaks)⟩
      obtain ⟨loaded, compatible, rfl, rfl, larger, overflow⟩ := leaks
      simp only [VclState.step, VclState.getDecodedProfilingBuffer, loaded, compatible, larger,
        safeCastU32_of_lt overflow, Option.isNone_none, Bool.not_true, Bool.false_eq_true, ne_eq, not_true_eq_false,
        and_self, ↓reduceIte]
      exact sound.abandon .profiling
    · exact kept (sound.getDecodedProfilingBuffer leaks) leaks
  | createQuery ngraphLite deviceContext create query =>
    by_cases leaks : state.Leaks (.createQuery ngraphLite deviceContext create query)
    · refine ⟨fun handle => lost handle ∨ handle = ⟨.compiler, state.opened⟩, ?_,
        iff_of_true ⟨_, .inr rfl⟩ (.inr leaks)⟩
      obtain ⟨rfl, rfl, compatible, created, refused⟩ := leaks
      simp only [VclState.step, VclState.createQuery, compilerCreate, compatible, created, refused, Bool.not_true,
        Bool.false_eq_true, ne_eq, not_false_eq_true, ↓reduceIte]
      exact sound.abandon .compiler
    · exact kept (sound.createQuery leaks) leaks
  | getSupportedLayers query layers =>
    refine kept ?_ id
    simp only [VclState.step, withLive]
    split
    · exact sound
    · exact sound
  | destroyQuery query =>
    refine kept ?_ id
    simp only [VclState.step, withLive]
    split
    · rename_i network found
      exact sound.destroy found
    · exact sound

theorem Sound.run (sound : Sound state lost) (calls : List VclCall) :
    ∃ others, Sound (final VclState.step state calls) others ∧
      ((∃ handle, others handle) ↔ (∃ handle, lost handle) ∨
        ¬ Guarded (fun state call => (VclState.step state call).2) (fun state call => ¬ state.Leaks call) state calls) := by
  induction calls generalizing state lost with
  | nil => exact ⟨lost, sound, by simp [Guarded]⟩
  | cons call rest ih =>
    obtain ⟨between, next, leaked⟩ := sound.step call
    obtain ⟨others, last, later⟩ := ih next
    refine ⟨others, last, later.trans ?_⟩
    rw [leaked, Guarded, not_and_or, not_not]
    tauto

theorem sound_new (loaded supportedOptions isOptionSupported : Bool) :
    Sound (new loaded supportedOptions isOptionSupported) fun _ => False := by
  refine ⟨Accounted.nothing.congr ?_ fun _ => Iff.rfl, ?_, ?_⟩
  · intro query handle
    exact TableOwns.nil query handle
  · intro handle absent
    cases absent
  · intro query network absent
    cases absent

/-- A query network that the library refuses costs a compiler. -/
example :
    (final step (new true true true)
      [.compilerInit (.SUCCESS, 7, 2) .SUCCESS (.SUCCESS, ⟨[], 1, 0, 0⟩),
        .createQuery true true .SUCCESS .INVALID_IR]).log =
      [.obtained ⟨.compiler, 1⟩, .released ⟨.compiler, 0⟩, .obtained ⟨.compiler, 0⟩] := by decide

end VclState

end NpuDriver
