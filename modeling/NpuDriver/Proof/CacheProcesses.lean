import NpuDriver.Cache.Processes
import NpuDriver.Library.Runs
import NpuDriver.Proof.CacheIntegrity

/-! Concurrent calls on one key of the disk cache. -/

namespace NpuDriver

open Library
open DiskCache (checkBlob_framed)
open KeyState (fileBytes)

variable {count : Nat} {cache : DiskCache} {state next : KeyState count} {process other : Fin count}
variable {call : Call} {inode stored : Nat} {blob : List UInt8}

/-- The inode holds a blob that was passed to `setBlob`, and its digest. -/
def KeyState.Complete (cache : DiskCache) (state : KeyState count) (inode : Nat) : Prop :=
  ∃ blob ∈ state.passed, state.content inode = fileBytes cache blob

instance : Decidable (state.Complete cache inode) := inferInstanceAs (Decidable (∃ blob ∈ _, _))

def Call.Returned : Call → Prop
  | .idle | .holding _ _ => True
  | _ => False

/-- A returned blob is one that was passed to `setBlob`, and no `getBlob` is about to remove a complete
entry. -/
def KeyState.CallSafe (cache : DiskCache) (state : KeyState count) : Call → Prop
  | .holding inode length => (state.content inode).take length ∈ state.passed
  | .get (.invalid _) => ∀ inode, state.entry = some inode → ¬ state.Complete cache inode
  | _ => True

/-- The cache as its callers see it, in one state of a run. -/
structure KeySafe (cache : DiskCache) (state : KeyState count) : Prop where
  calls : ∀ process, state.CallSafe cache (state.calls process)
  settled : (∀ process, (state.calls process).Returned) →
    ∀ inode, state.entry = some inode → state.Complete cache inode

/-- The step does not meet another call at the wrong moment: a shared lock is taken on a file that is
complete and was so when its size was read, or was empty then; a creator gets the size and the lock of
its file, and can remove it after a failed write, as long as the path refers to it. -/
def KeyState.NextUndisturbed (cache : DiskCache) (state : KeyState count) (process : Fin count)
    (granted : Bool) : Call → Prop
  | .get (.sized inode size) => granted = true → state.Sharable process inode →
    size = 0 ∨ state.Complete cache inode ∧ (state.content inode).length = size
  | .set (.created inode) _ | .set (.failed inode) _ => state.entry = some inode → granted = true
  | .set (.sized inode) _ => state.entry = some inode → granted = true ∧ state.Lockable process inode
  | _ => True

def KeyState.Undisturbed (cache : DiskCache) (state : KeyState count) (action : Fin count × CacheEvent) :
    Prop :=
  match action.2 with
  | .next granted _ => state.NextUndisturbed cache action.1 granted (state.calls action.1)
  | _ => True

instance (granted : Bool) : Decidable (state.NextUndisturbed cache process granted call) := by
  rw [KeyState.NextUndisturbed.eq_def]
  split <;> infer_instance

instance (action : Fin count × CacheEvent) : Decidable (state.Undisturbed cache action) := by
  rw [KeyState.Undisturbed]
  split <;> infer_instance

def GetStage.openInode : GetStage → Option Nat
  | .called => none
  | .opened inode | .sized inode _ | .locked inode _ | .mapped inode _ | .invalid inode | .outside inode
  | .closing inode => some inode

def SetStage.openInode : SetStage → Option Nat
  | .called | .evicting | .evicted => none
  | .evictOpened inode | .evictSized inode | .evictLocked inode | .evictClosing inode | .created inode
  | .sized inode | .writing inode _ | .failed inode | .closing inode => some inode

/-- The inode that a call has open. -/
def Call.openInode : Call → Option Nat
  | .idle => none
  | .get stage => stage.openInode
  | .set stage _ => stage.openInode
  | .holding inode _ => some inode

/-- The inode that a call has created and not yet completed or given up. -/
def Call.creating : Call → Option Nat
  | .set (.created inode) _ | .set (.sized inode) _ | .set (.writing inode _) _
  | .set (.failed inode) _ => some inode
  | _ => none

theorem Call.lock_openInode (locked : call.lock = some (inode, mode)) : call.openInode = some inode := by
  cases call with
  | idle => cases locked
  | get stage => cases stage <;> cases locked <;> rfl
  | set stage blob => cases stage <;> cases locked <;> rfl
  | holding file length =>
    cases locked
    rfl

theorem Call.creating_openInode (creates : call.creating = some inode) : call.openInode = some inode := by
  cases call with
  | set stage blob => cases stage <;> cases creates <;> rfl
  | _ => cases creates

/-- What a call has learned about the inode it works on. -/
def KeyState.CallHolds (cache : DiskCache) (state : KeyState count) : Call → Prop
  | .get (.locked inode size) =>
    size = 0 ∨ state.Complete cache inode ∧ (state.content inode).length = size
  | .get (.mapped inode size) => state.Complete cache inode ∧ (state.content inode).length = size
  | .get (.invalid _) | .get (.outside _) => False
  | .holding inode length =>
    ∃ blob ∈ state.passed, state.content inode = fileBytes cache blob ∧ length = blob.length
  | .set (.created inode) blob | .set (.sized inode) blob =>
    blob ∈ state.passed ∧ state.content inode = []
  | .set (.writing inode stored) blob =>
    blob ∈ state.passed ∧ state.content inode = (fileBytes cache blob).take stored ∧
      stored ≤ (fileBytes cache blob).length
  | .set _ blob => blob ∈ state.passed
  | _ => True

structure KeyInvariant (cache : DiskCache) (state : KeyState count) : Prop where
  below : ∀ process inode, (state.calls process).openInode = some inode → inode < state.nextInode
  entryBelow : ∀ inode, state.entry = some inode → inode < state.nextInode
  exclusive : ∀ process other inode, (state.calls process).lock = some (inode, .exclusive) →
    other ≠ process → (state.calls other).lock.map Prod.fst ≠ some inode
  creators : ∀ process other inode, (state.calls process).creating = some inode → other ≠ process →
    (state.calls other).creating ≠ some inode
  calls : ∀ process, state.CallHolds cache (state.calls process)
  entry : ∀ inode, state.entry = some inode →
    state.Complete cache inode ∨ ∃ process, (state.calls process).creating = some inode

theorem KeyState.Complete.mono (complete : state.Complete cache inode)
    (same : next.content inode = state.content inode) (more : state.passed ⊆ next.passed) :
    next.Complete cache inode := by
  obtain ⟨blob, member, content⟩ := complete
  exact ⟨blob, more member, same.trans content⟩

/-- A call learns only about a file that it has locked or created. -/
theorem KeyState.CallHolds.mono (holds : state.CallHolds cache call)
    (same : ∀ inode, call.lock.map Prod.fst = some inode ∨ call.creating = some inode →
      next.content inode = state.content inode)
    (more : state.passed ⊆ next.passed) : next.CallHolds cache call := by
  cases call with
  | idle => trivial
  | get stage =>
    cases stage with
    | locked inode size =>
      have kept := same inode (.inl rfl)
      rcases holds with empty | ⟨complete, length⟩
      · exact .inl empty
      · exact .inr ⟨complete.mono kept more, by rw [kept, length]⟩
    | mapped inode size =>
      have kept := same inode (.inl rfl)
      obtain ⟨complete, length⟩ := holds
      exact ⟨complete.mono kept more, by rw [kept, length]⟩
    | invalid | outside => exact holds.elim
    | _ => trivial
  | holding inode length =>
    obtain ⟨blob, member, content, whole⟩ := holds
    exact ⟨blob, more member, (same inode (.inl rfl)).trans content, whole⟩
  | set stage blob =>
    cases stage with
    | created inode | sized inode =>
      obtain ⟨member, content⟩ := holds
      exact ⟨more member, (same inode (.inr rfl)).trans content⟩
    | writing inode stored =>
      obtain ⟨member, content, bound⟩ := holds
      exact ⟨more member, (same inode (.inr rfl)).trans content, bound⟩
    | _ => exact more holds

namespace KeyInvariant

theorem initial (cache : DiskCache) (count : Nat) : KeyInvariant cache (KeyState.initial count) where
  below := fun _ _ held => nomatch held
  entryBelow := fun _ held => nomatch held
  exclusive := fun _ _ _ held => nomatch held
  creators := fun _ _ _ held => nomatch held
  calls := fun _ => trivial
  entry := fun _ held => nomatch held

theorem sharable (invariant : KeyInvariant cache state)
    (locked : (state.calls process).lock = some (inode, mode)) : state.Sharable process inode := by
  intro other different exclusive
  exact invariant.exclusive other process inode exclusive (Ne.symm different) (by rw [locked]; rfl)

theorem lockable (invariant : KeyInvariant cache state)
    (locked : (state.calls process).lock = some (inode, .exclusive)) : state.Lockable process inode :=
  fun other different => invariant.exclusive process other inode locked different


/-- What a call may change to when it leaves the files as they are. -/
structure Moves (cache : DiskCache) (state : KeyState count) (process : Fin count) (call : Call) :
    Prop where
  below : ∀ inode, call.openInode = some inode → inode < state.nextInode
  shared : ∀ inode, call.lock = some (inode, .shared) → state.Sharable process inode
  exclusive : ∀ inode, call.lock = some (inode, .exclusive) → state.Lockable process inode
  creating : ∀ inode, call.creating = some inode → (state.calls process).creating = some inode
  holds : state.CallHolds cache call
  done : ∀ inode, (state.calls process).creating = some inode → state.entry = some inode →
    call.creating = some inode ∨ state.Complete cache inode

theorem put (invariant : KeyInvariant cache state) (moves : Moves cache state process call) :
    KeyInvariant cache (state.put process call) where
  below := by
    intro other inode opened
    by_cases same : other = process
    · subst same
      rw [KeyState.put_self] at opened
      exact moves.below inode opened
    · rw [KeyState.put_other _ _ same] at opened
      exact invariant.below other inode opened
  entryBelow := invariant.entryBelow
  exclusive := by
    intro holder other inode locked different
    by_cases first : holder = process
    · subst first
      rw [KeyState.put_self] at locked
      rw [KeyState.put_other _ _ different]
      exact moves.exclusive inode locked other different
    · rw [KeyState.put_other _ _ first] at locked
      by_cases second : other = process
      · subst second
        rw [KeyState.put_self]
        intro held
        obtain ⟨⟨file, mode⟩, lock, rfl⟩ := Option.map_eq_some_iff.mp held
        cases mode with
        | shared => exact moves.shared file lock holder first locked
        | exclusive => exact moves.exclusive file lock holder first (by rw [locked]; rfl)
      · rw [KeyState.put_other _ _ second]
        exact invariant.exclusive holder other inode locked different
  creators := by
    intro creator other inode creates different
    have before : ∀ any, ((state.put process call).calls any).creating = some inode →
        (state.calls any).creating = some inode := by
      intro any made
      by_cases same : any = process
      · subst same
        rw [KeyState.put_self] at made
        exact moves.creating inode made
      · rwa [KeyState.put_other _ _ same] at made
    exact fun again => invariant.creators creator other inode (before _ creates) different (before _ again)
  calls := by
    intro other
    by_cases same : other = process
    · subst same
      rw [KeyState.put_self]
      exact moves.holds.mono (fun _ _ => rfl) (List.Subset.refl _)
    · rw [KeyState.put_other _ _ same]
      exact (invariant.calls other).mono (fun _ _ => rfl) (List.Subset.refl _)
  entry := by
    intro inode entry
    have kept : ∀ file, state.Complete cache file → (state.put process call).Complete cache file :=
      fun file complete => complete.mono rfl (List.Subset.refl _)
    rcases invariant.entry inode entry with complete | ⟨creator, creates⟩
    · exact .inl (kept inode complete)
    · by_cases same : creator = process
      · subst same
        rcases moves.done inode creates entry with still | complete
        · exact .inr ⟨creator, by rw [KeyState.put_self]; exact still⟩
        · exact .inl (kept inode complete)
      · exact .inr ⟨creator, by rw [KeyState.put_other _ _ same]; exact creates⟩

theorem removePath (invariant : KeyInvariant cache state) (granted : Bool) :
    KeyInvariant cache (state.removePath granted) := by
  rw [KeyState.removePath]
  split
  · exact {
      below := invariant.below
      entryBelow := fun _ held => nomatch held
      exclusive := invariant.exclusive
      creators := invariant.creators
      calls := fun other => (invariant.calls other).mono (fun _ _ => rfl) (List.Subset.refl _)
      entry := fun _ held => nomatch held }
  · exact invariant

theorem removePath_calls (state : KeyState count) (granted : Bool) :
    (state.removePath granted).calls = state.calls := by
  cases granted <;> rfl

theorem removePath_passed (state : KeyState count) (granted : Bool) :
    (state.removePath granted).passed = state.passed := by
  cases granted <;> rfl

/-- A file that did not exist before is open in no other call. -/
theorem created (invariant : KeyInvariant cache state) (passed : blob ∈ state.passed) :
    KeyInvariant cache (state.createFile.put process (.set (.created state.nextInode) blob)) where
  below := by
    intro other inode opened
    by_cases same : other = process
    · subst same
      rw [KeyState.put_self] at opened
      cases opened
      exact Nat.lt_succ_self _
    · rw [KeyState.put_other _ _ same] at opened
      exact Nat.lt_succ_of_lt (invariant.below other inode opened)
  entryBelow := by
    rintro inode ⟨⟩
    exact Nat.lt_succ_self _
  exclusive := by
    intro holder other inode locked different
    have before : ∀ any mode, ((state.createFile.put process (.set (.created state.nextInode) blob)).calls
        any).lock = some (inode, mode) → (state.calls any).lock = some (inode, mode) := by
      intro any mode held
      by_cases same : any = process
      · subst same
        rw [KeyState.put_self] at held
        cases held
      · rwa [KeyState.put_other _ _ same] at held
    intro again
    obtain ⟨⟨file, mode⟩, lock, rfl⟩ := Option.map_eq_some_iff.mp again
    exact invariant.exclusive holder other file (before _ _ locked) different
      (by rw [before _ _ lock]; rfl)
  creators := by
    intro creator other inode creates different again
    have fresh : ∀ any, (state.calls any).creating ≠ some state.nextInode := fun any made =>
      Nat.lt_irrefl _ (invariant.below any _ (Call.creating_openInode made))
    by_cases first : creator = process
    · subst first
      rw [KeyState.put_self] at creates
      rw [KeyState.put_other _ _ different] at again
      cases creates
      exact fresh other again
    · rw [KeyState.put_other _ _ first] at creates
      by_cases second : other = process
      · subst second
        rw [KeyState.put_self] at again
        cases again
        exact fresh creator creates
      · rw [KeyState.put_other _ _ second] at again
        exact invariant.creators creator other inode creates different again
  calls := by
    intro other
    by_cases same : other = process
    · subst same
      rw [KeyState.put_self]
      exact ⟨passed, Function.update_self ..⟩
    · rw [KeyState.put_other _ _ same]
      refine (invariant.calls other).mono (fun inode held => ?_) (List.Subset.refl _)
      have open' : (state.calls other).openInode = some inode := by
        rcases held with locked | creates
        · obtain ⟨⟨file, mode⟩, lock, rfl⟩ := Option.map_eq_some_iff.mp locked
          exact Call.lock_openInode lock
        · exact Call.creating_openInode creates
      exact Function.update_of_ne (Nat.ne_of_lt (invariant.below other inode open')) ..
  entry := by
    rintro inode ⟨⟩
    exact .inr ⟨process, by rw [KeyState.put_self]; rfl⟩

/-- Only the creator of a file knows anything about the content that it writes. -/
theorem wrote (invariant : KeyInvariant cache state)
    (writing : state.calls process = .set (.writing inode stored) blob) (amount : Nat)
    (room : stored + amount ≤ (fileBytes cache blob).length) :
    KeyInvariant cache ((state.append inode (((fileBytes cache blob).drop stored).take amount)).put process
      (.set (.writing inode (stored + amount)) blob)) := by
  let written : List UInt8 := ((fileBytes cache blob).drop stored).take amount
  let final : KeyState count := (state.append inode written).put process
    (.set (.writing inode (stored + amount)) blob)
  have holds := invariant.calls process
  rw [writing] at holds
  obtain ⟨passed, content, -⟩ := holds
  have self : final.calls process = .set (.writing inode (stored + amount)) blob := KeyState.put_self ..
  have others : ∀ other ≠ process, final.calls other = state.calls other :=
    fun other different => KeyState.put_other _ _ different
  have locked : (state.calls process).lock = some (inode, .exclusive) := by rw [writing]; rfl
  have creates : (state.calls process).creating = some inode := by rw [writing]; rfl
  have openInode : ∀ any, (final.calls any).openInode = (state.calls any).openInode := by
    intro any
    by_cases same : any = process
    · rw [same, self, writing]
      rfl
    · rw [others any same]
  have lock : ∀ any, (final.calls any).lock = (state.calls any).lock := by
    intro any
    by_cases same : any = process
    · rw [same, self, writing]
      rfl
    · rw [others any same]
  have creating : ∀ any, (final.calls any).creating = (state.calls any).creating := by
    intro any
    by_cases same : any = process
    · rw [same, self, writing]
      rfl
    · rw [others any same]
  have kept : ∀ file ≠ inode, final.content file = state.content file :=
    fun file different => Function.update_of_ne different ..
  constructor
  · exact fun any file opened => invariant.below any file ((openInode any).symm.trans opened)
  · exact invariant.entryBelow
  · intro holder other file held different
    rw [lock] at held ⊢
    exact invariant.exclusive holder other file held different
  · intro creator other file made different
    rw [creating] at made ⊢
    exact invariant.creators creator other file made different
  · intro other
    by_cases same : other = process
    · subst same
      rw [self]
      refine ⟨passed, ?_, room⟩
      change Function.update state.content inode (state.content inode ++ written) inode = _
      rw [Function.update_self, content, List.take_add]
    · rw [others other same]
      refine (invariant.calls other).mono (fun file held => kept file ?_) (List.Subset.refl _)
      rintro rfl
      rcases held with shares | creates'
      · exact invariant.exclusive process other file locked same shares
      · exact invariant.creators process other file creates same creates'
  · intro file entry
    by_cases same : file = inode
    · subst same
      exact .inr ⟨process, (creating process).trans creates⟩
    · rcases invariant.entry file entry with complete | ⟨creator, made⟩
      · exact .inl (complete.mono (kept file same) (List.Subset.refl _))
      · exact .inr ⟨creator, (creating creator).trans made⟩

/-- A call that creates nothing may always go on. -/
theorem Moves.of_reading (below : ∀ inode, call.openInode = some inode → inode < state.nextInode)
    (shared : ∀ inode, call.lock = some (inode, .shared) → state.Sharable process inode)
    (exclusive : ∀ inode, call.lock = some (inode, .exclusive) → state.Lockable process inode)
    (holds : state.CallHolds cache call) (none : call.creating = none)
    (before : (state.calls process).creating = .none) : Moves cache state process call where
  below := below
  shared := shared
  exclusive := exclusive
  creating := fun _ made => by rw [none] at made; cases made
  holds := holds
  done := fun _ made => by rw [before] at made; cases made

/-- Giving a call up closes its file. -/
theorem Moves.idle (done : ∀ inode, (state.calls process).creating = some inode →
    state.entry = some inode → state.Complete cache inode) : Moves cache state process .idle where
  below := fun _ held => nomatch held
  shared := fun _ held => nomatch held
  exclusive := fun _ held => nomatch held
  creating := fun _ held => nomatch held
  holds := trivial
  done := fun inode made entry => .inr (done inode made entry)

/-- A reader goes on with the same file. -/
theorem read (invariant : KeyInvariant cache state) {before : GetStage} {after : Call}
    (reads : state.calls process = .get before)
    (same : ∀ inode, after.openInode = some inode → before.openInode = some inode)
    (locks : ∀ inode mode, after.lock = some (inode, mode) → (state.calls process).lock = some (inode, mode))
    (holds : state.CallHolds cache after) (none : after.creating = none) :
    KeyInvariant cache (state.put process after) := by
  refine invariant.put (Moves.of_reading (fun inode opened => ?_)
    (fun inode locked => invariant.sharable (locks inode _ locked))
    (fun inode locked => invariant.lockable (locks inode _ locked)) holds none (by rw [reads]; rfl))
  exact invariant.below process inode (by rw [reads]; exact same inode opened)

theorem getNext (invariant : KeyInvariant cache state) {stage : GetStage} {granted : Bool}
    (reads : state.calls process = .get stage)
    (undisturbed : state.NextUndisturbed cache process granted (.get stage)) :
    KeyInvariant cache (KeyState.getNext cache state process granted stage) := by
  have holds := invariant.calls process
  rw [reads] at holds
  have gone : KeyInvariant cache (state.put process .idle) :=
    invariant.put (Moves.idle fun _ made _ => by rw [reads] at made; cases made)
  cases stage with
  | called =>
    simp only [KeyState.getNext]
    cases entry : state.entry with
    | none => exact gone
    | some inode =>
      cases granted with
      | false => exact gone
      | true =>
        refine invariant.put (Moves.of_reading ?_ (fun _ held => nomatch held) (fun _ held => nomatch held)
          trivial rfl (by rw [reads]; rfl))
        rintro _ ⟨⟩
        exact invariant.entryBelow inode entry
  | opened inode =>
    cases granted with
    | false => exact gone
    | true => exact invariant.read reads (fun _ held => held) (fun _ _ held => nomatch held) trivial rfl
  | sized inode size =>
    simp only [KeyState.getNext]
    split
    · rename_i locks
      obtain ⟨rfl, sharable⟩ := locks
      refine invariant.put (Moves.of_reading ?_ ?_ (fun _ held => nomatch held)
        (undisturbed rfl sharable) rfl (by rw [reads]; rfl))
      · rintro _ ⟨⟩
        exact invariant.below process inode (by rw [reads]; rfl)
      · rintro _ ⟨⟩
        exact sharable
    · exact gone
  | locked inode size =>
    simp only [KeyState.getNext]
    split
    · exact invariant.read reads (fun _ held => held) (fun _ _ held => by rw [reads]; exact held) trivial rfl
    · rename_i full
      exact invariant.read reads (fun _ held => held) (fun _ _ held => by rw [reads]; exact held)
        (holds.resolve_left fun empty => full (.inl empty)) rfl
  | mapped inode size =>
    -- the mapping covers the whole file, and its digest is right
    obtain ⟨⟨blob, member, content⟩, rfl⟩ := holds
    simp only [KeyState.getNext, List.take_length]
    have valid : DiskCache.checkBlob cache.hash (state.content inode) = .found blob := by
      rw [content]
      exact checkBlob_framed cache.hash blob
    rw [valid]
    exact invariant.read reads (fun _ held => held) (fun _ _ held => by rw [reads]; exact held)
      ⟨blob, member, content, rfl⟩ rfl
  | invalid inode => exact holds.elim
  | outside inode => exact holds.elim
  | closing inode => exact gone

/-- A `setBlob` goes on without a file, or with the one that it has open. -/
theorem proceed (invariant : KeyInvariant cache state) {before after : SetStage}
    (sets : state.calls process = .set before blob)
    (same : ∀ inode, after.openInode = some inode → before.openInode = some inode)
    (locks : ∀ inode mode, (Call.set after blob).lock = some (inode, mode) →
      (state.calls process).lock = some (inode, mode))
    (creating : (Call.set after blob).creating = (Call.set before blob).creating)
    (holds : state.CallHolds cache (.set after blob)) :
    KeyInvariant cache (state.put process (.set after blob)) :=
  invariant.put
    { below := fun inode opened => invariant.below process inode (by rw [sets]; exact same inode opened)
      shared := fun inode locked => invariant.sharable (locks inode _ locked)
      exclusive := fun inode locked => invariant.lockable (locks inode _ locked)
      creating := fun inode made => by rw [sets, ← creating]; exact made
      holds := holds
      done := fun inode made _ => .inl (by rw [creating, ← sets]; exact made) }

theorem passed (invariant : KeyInvariant cache state) {stage : SetStage}
    (sets : state.calls process = .set stage blob) : blob ∈ state.passed := by
  have holds := invariant.calls process
  rw [sets] at holds
  cases stage with
  | created inode | sized inode | writing inode stored => exact holds.1
  | _ => exact holds

/-- A creator locks its file while the path refers to it. -/
theorem setSized (invariant : KeyInvariant cache state) {granted : Bool}
    (sets : state.calls process = .set (.sized inode) blob)
    (undisturbed : state.NextUndisturbed cache process granted (.set (.sized inode) blob)) (amount : Nat) :
    KeyInvariant cache (KeyState.setNext cache state process granted amount blob (.sized inode)) := by
  have holds := invariant.calls process
  rw [sets] at holds
  simp only [KeyState.setNext]
  split
  · rename_i locks
    obtain ⟨member, content⟩ := holds
    apply invariant.put
    constructor
    case below =>
      rintro _ ⟨⟩
      exact invariant.below process inode (by rw [sets]; rfl)
    case shared => exact fun _ held => nomatch held
    case exclusive =>
      rintro _ ⟨⟩
      exact locks.2
    case creating =>
      rintro _ ⟨⟩
      rw [sets]
      rfl
    case holds => exact ⟨member, by rw [content, List.take_zero], Nat.zero_le _⟩
    case done =>
      intro file made _
      rw [sets] at made
      exact .inl made
  · rename_i refused
    refine invariant.put (Moves.idle fun file made entry => ?_)
    rw [sets] at made
    cases made
    exact absurd (undisturbed entry) refused

/-- A write goes on with the bytes that are left, and a whole file is closed and read back. -/
theorem setWriting (invariant : KeyInvariant cache state) {granted : Bool}
    (sets : state.calls process = .set (.writing inode stored) blob) (amount : Nat) :
    KeyInvariant cache (KeyState.setNext cache state process granted amount blob (.writing inode stored)) := by
  have holds := invariant.calls process
  rw [sets] at holds
  have failed : KeyInvariant cache (state.put process (.set (.failed inode) blob)) :=
    invariant.proceed sets (fun _ held => held) (fun _ _ held => by rw [sets]; exact held) rfl
      (invariant.passed sets)
  simp only [KeyState.setNext, KeyState.writeNext]
  split
  · exact failed
  · split
    · rename_i whole
      obtain ⟨member, content, -⟩ := holds
      rw [whole, List.take_length] at content
      apply invariant.put
      constructor
      case below => exact fun _ held => nomatch held
      case shared => exact fun _ held => nomatch held
      case exclusive => exact fun _ held => nomatch held
      case creating => exact fun _ held => nomatch held
      case holds => trivial
      case done =>
        intro file made _
        rw [sets] at made
        cases made
        exact .inr ⟨blob, member, content⟩
    · split
      · exact failed
      · refine invariant.wrote sets _ ?_
        obtain ⟨-, -, bound⟩ := holds
        have length : (fileBytes cache blob).length = blob.length + HashCity.DigestLength := by
          simp [fileBytes]
        split <;> omega

/-- A file whose write failed is removed as long as the path refers to it. -/
theorem setFailed (invariant : KeyInvariant cache state) {granted : Bool}
    (sets : state.calls process = .set (.failed inode) blob)
    (undisturbed : state.NextUndisturbed cache process granted (.set (.failed inode) blob)) (amount : Nat) :
    KeyInvariant cache (KeyState.setNext cache state process granted amount blob (.failed inode)) := by
  have removed := invariant.removePath granted
  have calls := removePath_calls state granted
  apply removed.put
  constructor
  case below =>
    rintro _ ⟨⟩
    exact removed.below process inode (by rw [calls, sets]; rfl)
  case shared => exact fun _ held => nomatch held
  case exclusive =>
    rintro _ ⟨⟩
    exact removed.lockable (by rw [calls, sets]; rfl)
  case creating => exact fun _ held => nomatch held
  case holds =>
    have passed := invariant.passed sets
    rw [← removePath_passed state granted] at passed
    exact passed
  case done =>
    intro file made entry
    rw [calls, sets] at made
    cases made
    cases granted with
    | true => cases entry
    | false => exact absurd (undisturbed entry) Bool.false_ne_true

theorem setNext (invariant : KeyInvariant cache state) {stage : SetStage} {granted : Bool}
    (sets : state.calls process = .set stage blob)
    (undisturbed : state.NextUndisturbed cache process granted (.set stage blob)) (amount : Nat) :
    KeyInvariant cache (KeyState.setNext cache state process granted amount blob stage) := by
  have holds := invariant.calls process
  rw [sets] at holds
  have passed := invariant.passed sets
  cases stage with
  | called | evicted =>
    simp only [KeyState.setNext]
    split
    · exact invariant.created passed
    · exact invariant.put (Moves.idle fun _ made _ => by rw [sets] at made; cases made)
  | evicting =>
    have skipped : KeyInvariant cache (state.put process (.set .evicted blob)) :=
      invariant.proceed sets (fun _ held => held) (fun _ _ held => nomatch held) rfl passed
    simp only [KeyState.setNext]
    cases entry : state.entry with
    | none => exact skipped
    | some inode =>
      cases granted with
      | false => exact skipped
      | true =>
        refine invariant.put (Moves.of_reading ?_ (fun _ held => nomatch held) (fun _ held => nomatch held)
          passed rfl (by rw [sets]; rfl))
        rintro _ ⟨⟩
        exact invariant.entryBelow inode entry
  | evictOpened inode =>
    cases granted with
    | false => exact invariant.proceed sets (fun _ held => nomatch held) (fun _ _ held => nomatch held) rfl passed
    | true => exact invariant.proceed sets (fun _ held => held) (fun _ _ held => nomatch held) rfl passed
  | evictSized inode =>
    simp only [KeyState.setNext]
    split
    · rename_i locks
      refine invariant.put (Moves.of_reading ?_ (fun _ held => nomatch held) ?_ passed rfl (by rw [sets]; rfl))
      · rintro _ ⟨⟩
        exact invariant.below process inode (by rw [sets]; rfl)
      · rintro _ ⟨⟩
        exact locks.2
    · exact invariant.proceed sets (fun _ held => nomatch held) (fun _ _ held => nomatch held) rfl passed
  | evictLocked inode =>
    have memberAfter : blob ∈ (state.removePath granted).passed := by rw [removePath_passed]; exact passed
    have setsAfter : (state.removePath granted).calls process = .set (.evictLocked inode) blob := by
      rw [removePath_calls]; exact sets
    exact (invariant.removePath granted).proceed setsAfter (fun _ held => held)
      (fun _ _ held => by rw [setsAfter]; exact held) rfl memberAfter
  | evictClosing inode =>
    exact invariant.proceed sets (fun _ held => nomatch held) (fun _ _ held => nomatch held) rfl passed
  | created inode =>
    cases granted with
    | true => exact invariant.proceed sets (fun _ held => held) (fun _ _ held => nomatch held) rfl holds
    | false =>
      refine invariant.put (Moves.idle fun file made entry => ?_)
      rw [sets] at made
      cases made
      exact absurd (undisturbed entry) Bool.false_ne_true
  | sized inode => exact invariant.setSized sets undisturbed amount
  | writing inode stored => exact invariant.setWriting sets amount
  | failed inode => exact invariant.setFailed sets undisturbed amount
  | closing inode => exact invariant.put (Moves.idle fun _ made _ => by rw [sets] at made; cases made)

/-- Every undisturbed step keeps the invariant. -/
theorem step (action : Fin count × CacheEvent) (invariant : KeyInvariant cache state)
    (undisturbed : state.Undisturbed cache action) : KeyInvariant cache (KeyState.step cache state action) := by
  obtain ⟨process, event⟩ := action
  rw [KeyState.step]
  simp only
  split
  · rename_i idle
    split
    · exact invariant.put (Moves.of_reading (fun _ held => nomatch held) (fun _ held => nomatch held)
        (fun _ held => nomatch held) trivial rfl (by rw [idle]; rfl))
    · exact invariant
  · rename_i blob idle
    have asked : KeyInvariant cache { state with passed := blob :: state.passed } :=
      { below := invariant.below, entryBelow := invariant.entryBelow, exclusive := invariant.exclusive
        creators := invariant.creators
        calls := fun other => (invariant.calls other).mono (fun _ _ => rfl) (List.subset_cons_self ..)
        entry := fun inode entry =>
          (invariant.entry inode entry).imp_left fun complete =>
            complete.mono rfl (List.subset_cons_self ..) }
    split
    · exact asked
    · exact asked.put (Moves.of_reading (fun _ held => nomatch held) (fun _ held => nomatch held)
        (fun _ held => nomatch held) List.mem_cons_self rfl (by rw [idle]; rfl))
  · rename_i blob sets
    exact invariant.proceed sets (fun _ held => held) (fun _ _ held => nomatch held) rfl
      (invariant.passed sets)
  · rename_i stage granted amount reads
    rw [KeyState.Undisturbed] at undisturbed
    simp only [reads] at undisturbed
    exact invariant.getNext reads undisturbed
  · rename_i stage blob granted amount sets
    rw [KeyState.Undisturbed] at undisturbed
    simp only [sets] at undisturbed
    exact invariant.setNext sets undisturbed amount
  · rename_i inode length holding
    exact invariant.put (Moves.idle fun _ made _ => by rw [holding] at made; cases made)
  · exact invariant

theorem safe (invariant : KeyInvariant cache state) : KeySafe cache state where
  calls := by
    intro process
    have holds := invariant.calls process
    cases standing : state.calls process with
    | idle | set => trivial
    | get stage =>
      rw [standing] at holds
      cases stage with
      | invalid inode => exact holds.elim
      | _ => trivial
    | holding inode length =>
      rw [standing] at holds
      obtain ⟨blob, member, content, rfl⟩ := holds
      rw [KeyState.CallSafe, content, fileBytes, List.take_left']
      · exact member
      · rfl
  settled := by
    intro returned inode entry
    refine (invariant.entry inode entry).resolve_right ?_
    rintro ⟨process, creates⟩
    have back := returned process
    cases standing : state.calls process with
    | set stage blob =>
      rw [standing] at back
      exact back
    | _ =>
      rw [standing] at creates
      cases creates

end KeyInvariant

/-- In every run whose steps do not meet another call at the wrong moment, the calls return only blobs
that were set, keep complete entries, and leave a complete entry or none. -/
theorem cache_runs_safe (cache : DiskCache) (count : Nat) (actions : List (Fin count × CacheEvent))
    (undisturbed : Guarded (KeyState.step cache) (KeyState.Undisturbed cache) (KeyState.initial count) actions) :
    KeySafe cache (runFrom (KeyState.step cache) (KeyState.initial count) actions) :=
  (guarded_invariant (fun _ action invariant allowed => KeyInvariant.step action invariant allowed)
    (KeyInvariant.initial cache count) undisturbed).safe

/-- Granted file-system steps of one call, the writes with up to the given number of bytes. -/
def steps (process : Fin count) (amounts : List Nat) : List (Fin count × CacheEvent) :=
  amounts.map fun amount => (process, .next true amount)

/-- A lookup is refused while the blob is written, and a later one finds it. -/
def readAround : List (Fin 2 × CacheEvent) :=
  [(0, .setBlob [1, 2, 3, 4, 5])] ++ steps 0 [0, 0, 0, 4] ++ [(1, .getBlob)] ++ steps 1 [0, 0, 0] ++
    steps 0 [100, 100, 0] ++ [(1, .getBlob)] ++ steps 1 [0, 0, 0, 0, 0] ++ steps 0 [0, 0, 0, 0, 0]

theorem read_around_safe :
    KeySafe sampleCache (runFrom (KeyState.step sampleCache) (KeyState.initial 2) readAround) :=
  cache_runs_safe sampleCache 2 readAround (by decide +kernel)

/-- A lookup locks the new file before its creator does. -/
def readerFirst : List (Fin 2 × CacheEvent) :=
  [(0, .setBlob [1, 2, 3, 4, 5])] ++ steps 0 [0] ++ [(1, .getBlob)] ++ steps 1 [0, 0, 0] ++ steps 0 [0, 0] ++
    steps 1 [0, 0]

/-- A lookup reads the size of the file when its last byte is missing, and locks it when it is there. -/
def sizeTooEarly : List (Fin 2 × CacheEvent) :=
  [(0, .setBlob [1, 2, 3, 4, 5])] ++ steps 0 [0, 0, 0, 5, 79] ++ [(1, .getBlob)] ++ steps 1 [0, 0] ++
    steps 0 [1, 0] ++ steps 1 [0, 0, 0]

/-- The first run leaves an empty file, in the second a complete entry is about to be removed. -/
theorem disturbed_runs_unsafe :
    ¬ KeySafe sampleCache (runFrom (KeyState.step sampleCache) (KeyState.initial 2) readerFirst) ∧
      ¬ KeySafe sampleCache (runFrom (KeyState.step sampleCache) (KeyState.initial 2) sizeTooEarly) := by
  constructor
  · intro safe
    have returned : ∀ process, (runFrom (KeyState.step sampleCache) (KeyState.initial 2) readerFirst).calls
        process = .idle := by decide +kernel
    have complete := safe.settled (fun process => by rw [returned process]; trivial) 0 (by decide +kernel)
    exact absurd complete (by decide +kernel)
  · intro safe
    have invalid : (runFrom (KeyState.step sampleCache) (KeyState.initial 2) sizeTooEarly).calls 1 =
        .get (.invalid 0) := by decide +kernel
    have kept := safe.calls 1
    rw [invalid] at kept
    exact kept 0 (by decide +kernel) (by decide +kernel)

end NpuDriver
