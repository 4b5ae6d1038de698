import NpuDriver.Library.Observation
import NpuDriver.LevelZero.GraphLogs

/-! Logs as the calls before determine them. -/

namespace NpuDriver

open Library ZeResult

/-- The cache status that a compilation reports: the blob was found, or it was compiled and handed to the cache. -/
def NGraphLite.cacheStatus (compilation : NGraphLite) : List UInt8 :=
  if compilation.cacheDisabled ∨ compilation.lookup ≠ .done then []
  else if compilation.found then cacheFound
  else if compilation.compiler.outcome = .done ∧ compilation.setBlob = .done then cacheStored
  else []

namespace GraphBuild

def outcome (build : GraphBuild) : BuildEnd := (build.initializeGraph ⟨[], []⟩).1

def log (build : GraphBuild) : List UInt8 := (build.initializeGraph ⟨[], []⟩).2.log

def cacheStatus (build : GraphBuild) : List UInt8 :=
  match build.source with
  | .NGRAPH_LITE compilation => if build.pInput ∧ build.inputSize ≠ 0 then compilation.cacheStatus else []
  | _ => []

/-- What a thread reads behind a construction: its log when it ended with a `DriverError`, else its cache status. -/
def failText (build : GraphBuild) : List UInt8 :=
  match build.outcome with
  | .driverError _ => build.log
  | _ => build.cacheStatus

theorem parse_lastFailLog (build : GraphBuild) (texts : BuildTexts) :
    (build.parse texts).2.lastFailLog = texts.lastFailLog := by
  rw [parse]
  split <;> rfl

theorem getBlobContainerNGraphLite_lastFailLog (compilation : NGraphLite) :
    (compilation.getBlobContainerNGraphLite ⟨[], []⟩).2.lastFailLog = compilation.cacheStatus := by
  obtain ⟨cacheDisabled, lookup, found, ⟨text, compiled⟩, setBlob⟩ := compilation
  simp only [NGraphLite.getBlobContainerNGraphLite, NGraphLite.cacheStatus]
  cases lookup with
  | driverError | exception => simp
  | done =>
    cases cacheDisabled with
    | true => cases compiled <;> rfl
    | false =>
      cases found with
      | true => rfl
      | false =>
        cases compiled with
        | driverError | exception => simp [BuildTexts.append]
        | done => cases setBlob <;> simp [BuildTexts.append, BuildTexts.cacheStatus]

/-- A construction writes nothing but its cache status to the fail log. -/
theorem initializeGraph_lastFailLog (build : GraphBuild) :
    (build.initializeGraph ⟨[], []⟩).2.lastFailLog = build.cacheStatus := by
  obtain ⟨pInput, inputSize, source, checkMagic, parser⟩ := build
  rw [initializeGraph, cacheStatus]
  cases pInput with
  | false => cases source <;> rfl
  | true =>
    by_cases empty : inputSize = 0
    · cases source <;> simp [empty]
    · cases source with
      | NATIVE => simp [empty, parse_lastFailLog]
      | other => simp [empty, BuildTexts.append]
      | NGRAPH_LITE compilation =>
        have status := getBlobContainerNGraphLite_lastFailLog compilation
        simp only [empty, Bool.not_true, Bool.false_eq_true, if_false, ne_eq, not_false_eq_true, and_self, if_true]
        generalize compilation.getBlobContainerNGraphLite ⟨[], []⟩ = answer at status
        obtain ⟨outcome, texts⟩ := answer
        cases outcome with
        | done => exact (parse_lastFailLog _ texts).trans status
        | driverError | exception => exact status

end GraphBuild

namespace LogCall

/-- A creation that gets as far as the construction of a graph, and whether it makes a log object. -/
def built : LogCall → Option (Bool × GraphBuild)
  | .create true true logged build => some (logged, build)
  | _ => none

def message : LogCall → Option (List UInt8)
  | .getData true message (some _) => some message
  | _ => none

end LogCall

/-- The calls of a process so far, of all threads, with the last one at the end. -/
abbrev LogHistory := List (Nat × LogCall)

namespace LogHistory

variable {history : LogHistory} {thread : Nat} {call : LogCall}

def builds (history : LogHistory) (thread : Nat) : List GraphBuild :=
  history.filterMap fun entry => if entry.1 = thread then entry.2.built.map Prod.snd else none

/-- What the last creation of a thread left it to read. -/
def failText (history : LogHistory) (thread : Nat) : List UInt8 :=
  (history.builds thread).getLast?.elim [] GraphBuild.failText

/-- The messages of all failed decodings of a thread. -/
def errorText (history : LogHistory) (thread : Nat) : List UInt8 :=
  (history.filterMap fun entry => if entry.1 = thread then entry.2.message else none).flatten

/-- The logs that have objects, in the order of the creations. -/
def logTexts (history : LogHistory) : List (List UInt8) :=
  history.filterMap fun entry => entry.2.built.bind fun (logged, build) => if logged then some build.log else none

def answer (history : LogHistory) : Nat × LogCall → LogAnswer
  | (_, .create pDesc phGraph phGraphBuildLog build) =>
    if !pDesc || !phGraph then .only (.driver ZE_RESULT_ERROR_INVALID_NULL_POINTER)
    else
      ⟨GraphLogs.resultOf build.outcome, none, [],
        if phGraphBuildLog then some history.logTexts.length else none⟩
  | (thread, .getLogString pSize pBuildLog) => .fetch (history.failText thread) pSize pBuildLog
  | (_, .buildLogGetString hGraphBuildLog pSize pBuildLog) =>
    .fetch (history.logTexts.getD hGraphBuildLog []) pSize pBuildLog
  | (_, .buildLogDestroy _) => .only (.driver ZE_RESULT_SUCCESS)
  | (_, .getData pSize _ error) =>
    if !pSize then .only (.driver ZE_RESULT_ERROR_INVALID_NULL_POINTER)
    else .only (error.elim (.driver ZE_RESULT_SUCCESS) .passed)
  | (thread, .profilingGetString pSize pProfilingLog) => .fetchSized (history.errorText thread) pSize pProfilingLog

def step (history : LogHistory) (entry : Nat × LogCall) : LogAnswer × LogHistory :=
  (history.answer entry, history ++ [entry])

/-- A construction decides what its thread reads next; nothing else does. -/
theorem failText_append (history : LogHistory) (entry : Nat × LogCall) (thread : Nat) :
    failText (history ++ [entry]) thread =
      match entry.2.built with
      | none => history.failText thread
      | some (_, build) => if entry.1 = thread then build.failText else history.failText thread := by
  unfold failText builds
  rw [List.filterMap_append]
  cases made : entry.2.built with
  | none => simp [made]
  | some pair =>
    by_cases own : entry.1 = thread
    · simp [own, made]
    · simp [own]

theorem errorText_append (history : LogHistory) (entry : Nat × LogCall) (thread : Nat) :
    errorText (history ++ [entry]) thread =
      history.errorText thread ++ if entry.1 = thread then entry.2.message.getD [] else [] := by
  unfold errorText
  rw [List.filterMap_append, List.flatten_append]
  congr 1
  by_cases own : entry.1 = thread
  · cases made : entry.2.message with
    | none => simp [own, made]
    | some message => simp [own, made]
  · simp [own]

theorem logTexts_append (history : LogHistory) (entry : Nat × LogCall) :
    logTexts (history ++ [entry]) =
      history.logTexts ++ match entry.2.built with
        | some (true, build) => [build.log]
        | _ => [] := by
  unfold logTexts
  rw [List.filterMap_append]
  congr 1
  cases made : entry.2.built with
  | none => simp [made]
  | some pair =>
    obtain ⟨logged, build⟩ := pair
    cases logged with
    | false => simp [made]
    | true => simp [made]

end LogHistory

namespace GraphLogs

/-- The kept texts are those of the history. -/
structure Follows (logs : GraphLogs) (history : LogHistory) : Prop where
  fails : ∀ thread, logs.lastFailLogs thread = history.failText thread
  errors : ∀ thread, logs.lastErrorMsgs thread = history.errorText thread
  count : logs.buildLogs.length = history.logTexts.length
  texts : ∀ handle text, live logs.buildLogs handle = some text → history.logTexts[handle]? = some text

variable {logs : GraphLogs} {history : LogHistory}

/-- Calls that keep every text. -/
theorem Follows.quiet (follows : Follows logs history) {entry : Nat × LogCall} (built : entry.2.built = none)
    (message : entry.2.message = none) : Follows logs (history ++ [entry]) := by
  refine ⟨?_, ?_, ?_, ?_⟩
  · intro thread
    rw [LogHistory.failText_append, built]
    exact follows.fails thread
  · intro thread
    rw [LogHistory.errorText_append, message, Option.getD_none, ite_self, List.append_nil]
    exact follows.errors thread
  · rw [LogHistory.logTexts_append, built, List.append_nil]
    exact follows.count
  · rw [LogHistory.logTexts_append, built, List.append_nil]
    exact follows.texts

/-- A new log object comes last. -/
theorem Follows.texts_append (follows : Follows logs history) (log : List UInt8) {handle : Nat} {text : List UInt8}
    (found : live (logs.buildLogs ++ [some log]) handle = some text) :
    (history.logTexts ++ [log])[handle]? = some text := by
  rw [live_append] at found
  split at found
  · rename_i last
    rw [last, follows.count, List.getElem?_concat_length]
    exact found
  · have before := follows.texts handle text found
    rw [List.getElem?_append_left (List.getElem?_eq_some_iff.mp before).1]
    exact before

/-- What a construction leaves in the log of its thread. -/
theorem Follows.fails_build (follows : Follows logs history) (thread : Nat) (phGraphBuildLog : Bool)
    (build : GraphBuild) (other : Nat) :
    Function.update logs.lastFailLogs thread build.failText other =
      LogHistory.failText (history ++ [(thread, .create true true phGraphBuildLog build)]) other := by
  rw [LogHistory.failText_append]
  by_cases own : thread = other
  · subst own
    simp [LogCall.built]
  · rw [Function.update_of_ne (Ne.symm own)]
    simp [LogCall.built, own, follows.fails other]

theorem Follows.build (follows : Follows logs history) (thread : Nat) (phGraphBuildLog : Bool) (build : GraphBuild) :
    Follows
      { lastFailLogs := Function.update logs.lastFailLogs thread build.failText
        lastErrorMsgs := logs.lastErrorMsgs
        buildLogs := if phGraphBuildLog then logs.buildLogs ++ [some build.log] else logs.buildLogs }
      (history ++ [(thread, .create true true phGraphBuildLog build)]) := by
  refine ⟨follows.fails_build thread phGraphBuildLog build, ?_, ?_, ?_⟩
  · intro other
    rw [LogHistory.errorText_append]
    simp [LogCall.message, follows.errors other]
  · rw [LogHistory.logTexts_append]
    cases phGraphBuildLog with
    | false => simpa [LogCall.built] using follows.count
    | true => simpa [LogCall.built] using follows.count
  · rw [LogHistory.logTexts_append]
    cases phGraphBuildLog with
    | false => simpa [LogCall.built] using follows.texts
    | true =>
      intro handle text found
      exact follows.texts_append build.log found

theorem Follows.create (follows : Follows logs history) (thread : Nat) (pDesc phGraph phGraphBuildLog : Bool)
    (build : GraphBuild) :
    (logs.create thread pDesc phGraph phGraphBuildLog build).1 =
        history.answer (thread, .create pDesc phGraph phGraphBuildLog build) ∧
      Follows (logs.create thread pDesc phGraph phGraphBuildLog build).2
        (history ++ [(thread, .create pDesc phGraph phGraphBuildLog build)]) := by
  cases pDesc with
  | false => exact ⟨rfl, follows.quiet rfl rfl⟩
  | true =>
    cases phGraph with
    | false => exact ⟨rfl, follows.quiet rfl rfl⟩
    | true =>
      have built := follows.build thread phGraphBuildLog build
      have kept := build.initializeGraph_lastFailLog
      simp only [GraphLogs.create, LogHistory.answer, GraphBuild.outcome, GraphBuild.log, GraphBuild.failText,
        Bool.not_true, Bool.or_self, Bool.false_eq_true, if_false] at built ⊢
      generalize build.initializeGraph ⟨[], []⟩ = answer at built kept ⊢
      obtain ⟨outcome, texts⟩ := answer
      refine ⟨by rw [follows.count], ?_⟩
      rw [← kept] at built
      exact built

theorem Follows.failedDecoding (follows : Follows logs history) (thread : Nat) (message : List UInt8) (code : Nat) :
    Follows
      { logs with lastErrorMsgs := Function.update logs.lastErrorMsgs thread (logs.lastErrorMsgs thread ++ message) }
      (history ++ [(thread, .getData true message (some code))]) := by
  refine ⟨?_, ?_, ?_, ?_⟩
  · intro other
    rw [LogHistory.failText_append]
    exact follows.fails other
  · intro other
    rw [LogHistory.errorText_append, ← follows.errors other]
    by_cases own : thread = other
    · subst own
      simp [LogCall.message]
    · simp [own, Function.update_of_ne (Ne.symm own)]
  · rw [LogHistory.logTexts_append]
    simpa [LogCall.built] using follows.count
  · rw [LogHistory.logTexts_append]
    simpa [LogCall.built] using follows.texts

theorem Follows.step (follows : Follows logs history) (entry : Nat × LogCall) (valid : logs.Valid entry) :
    (logs.step entry).1 = history.answer entry ∧ Follows (logs.step entry).2 (history ++ [entry]) := by
  obtain ⟨thread, call⟩ := entry
  cases call with
  | create pDesc phGraph phGraphBuildLog build => exact follows.create thread pDesc phGraph phGraphBuildLog build
  | getLogString pSize pBuildLog =>
    exact ⟨by simp only [GraphLogs.step, LogHistory.answer, follows.fails], follows.quiet rfl rfl⟩
  | buildLogGetString handle pSize pBuildLog =>
    refine ⟨?_, follows.quiet rfl rfl⟩
    obtain ⟨text, found⟩ := Option.isSome_iff_exists.mp valid
    simp only [GraphLogs.step, withLive, found, LogHistory.answer, List.getD_eq_getElem?_getD,
      follows.texts handle text found, Option.getD_some]
  | buildLogDestroy handle =>
    refine ⟨rfl, ?_⟩
    have kept : Follows logs (history ++ [(thread, .buildLogDestroy handle)]) := follows.quiet rfl rfl
    obtain ⟨text, found⟩ := Option.isSome_iff_exists.mp valid
    refine ⟨kept.fails, kept.errors, ?_, ?_⟩
    · rw [← kept.count]
      exact List.length_set
    · intro other remaining present
      simp only [GraphLogs.step] at present
      rw [live_set (live_lt found)] at present
      split at present
      · cases present
      · exact kept.texts other remaining present
  | getData pSize message error =>
    cases pSize with
    | false => exact ⟨rfl, follows.quiet rfl rfl⟩
    | true =>
      cases error with
      | none => exact ⟨rfl, follows.quiet rfl rfl⟩
      | some code => exact ⟨rfl, follows.failedDecoding thread message code⟩
  | profilingGetString pSize pProfilingLog =>
    exact ⟨by simp only [GraphLogs.step, LogHistory.answer, follows.errors], follows.quiet rfl rfl⟩

/-- A blob that the parser refuses. -/
def refusedBlob (text : List UInt8) : GraphBuild := ⟨true, 1, .NATIVE, true, ⟨text, .driverError (.passed 7)⟩⟩

/-- A model that the compiler compiles, and that the cache did not hold. -/
def compiledModel (text : List UInt8) : GraphBuild :=
  ⟨true, 1, .NGRAPH_LITE ⟨false, .done, false, ⟨text, .done⟩, .done⟩, true, ⟨[], .done⟩⟩

/-- Behind a success the thread reads the status of the cache. -/
example :
    (answers GraphLogs.step initial
      [(2, .create true true true (compiledModel [67])), (2, .getLogString (some 90) true)]).map LogAnswer.written =
      [[], cacheStored ++ [0]] := by decide

end GraphLogs

/-- What a log is read from. -/
inductive LogSource where
  | failed (thread : Nat)
  | object (handle : Nat)
  | decoded (thread : Nat)

namespace LogSource

def text (logs : GraphLogs) : LogSource → Option (List UInt8)
  | .failed thread => some (logs.lastFailLogs thread)
  | .object handle => live logs.buildLogs handle
  | .decoded thread => some (logs.lastErrorMsgs thread)

/-- The call that asks for the size, by some thread where it does not matter which. -/
def sizeCall (reader : Nat) : LogSource → Nat × LogCall
  | .failed thread => (thread, .getLogString (some 0) false)
  | .object handle => (reader, .buildLogGetString handle (some 0) false)
  | .decoded thread => (thread, .profilingGetString (some 0) false)

def fetchCall (reader size : Nat) : LogSource → Nat × LogCall
  | .failed thread => (thread, .getLogString (some size) true)
  | .object handle => (reader, .buildLogGetString handle (some size) true)
  | .decoded thread => (thread, .profilingGetString (some size) true)

/-- The calls that change the text. -/
def Disturbs (entry : Nat × LogCall) : LogSource → Prop
  | .failed thread => entry.1 = thread ∧ entry.2.built.isSome
  | .object handle => entry.2 = .buildLogDestroy handle
  | .decoded thread => entry.1 = thread ∧ entry.2.message.isSome

variable {logs : GraphLogs} {source : LogSource} {text : List UInt8}

theorem lastFailLogs_step (logs : GraphLogs) {entry : Nat × LogCall} {thread : Nat}
    (quiet : ¬ (entry.1 = thread ∧ entry.2.built.isSome)) :
    (logs.step entry).2.lastFailLogs thread = logs.lastFailLogs thread := by
  obtain ⟨caller, call⟩ := entry
  cases call with
  | create pDesc phGraph phGraphBuildLog build =>
    rw [GraphLogs.step, GraphLogs.create]
    split
    · rfl
    · split
      · rfl
      · rename_i desc graph
        have other : thread ≠ caller := by
          intro same
          simp only [Bool.not_eq_true, Bool.not_eq_false'] at desc graph
          exact quiet ⟨same.symm, by rw [desc, graph]; rfl⟩
        exact Function.update_of_ne other _ _
  | getData pSize message error =>
    cases pSize with
    | false => rfl
    | true =>
      cases error with
      | none | some => rfl
  | getLogString | buildLogGetString | buildLogDestroy | profilingGetString => rfl

theorem lastErrorMsgs_step (logs : GraphLogs) {entry : Nat × LogCall} {thread : Nat}
    (quiet : ¬ (entry.1 = thread ∧ entry.2.message.isSome)) :
    (logs.step entry).2.lastErrorMsgs thread = logs.lastErrorMsgs thread := by
  obtain ⟨caller, call⟩ := entry
  cases call with
  | create pDesc phGraph phGraphBuildLog build =>
    rw [GraphLogs.step, GraphLogs.create]
    split
    · rfl
    · split
      · rfl
      · rfl
  | getData pSize message error =>
    cases pSize with
    | false => rfl
    | true =>
      cases error with
      | none => rfl
      | some code =>
        have other : thread ≠ caller := fun same => quiet ⟨same.symm, rfl⟩
        exact Function.update_of_ne other _ _
  | getLogString | buildLogGetString | buildLogDestroy | profilingGetString => rfl

theorem buildLogs_step (logs : GraphLogs) {entry : Nat × LogCall} {handle : Nat}
    (found : live logs.buildLogs handle = some text) (quiet : entry.2 ≠ .buildLogDestroy handle) :
    live (logs.step entry).2.buildLogs handle = some text := by
  obtain ⟨caller, call⟩ := entry
  cases call with
  | create pDesc phGraph phGraphBuildLog build =>
    rw [GraphLogs.step, GraphLogs.create]
    split
    · exact found
    · split
      · exact found
      · cases phGraphBuildLog with
        | false => exact found
        | true => exact live_append_of_live found _
  | buildLogDestroy other =>
    have different : handle ≠ other := fun same => quiet (same ▸ rfl)
    simp only [GraphLogs.step, live, List.getElem?_set_ne (Ne.symm different)]
    exact found
  | getData pSize message error =>
    cases pSize with
    | false => exact found
    | true =>
      cases error with
      | none | some => exact found
  | getLogString | buildLogGetString | profilingGetString => exact found

theorem text_step (found : source.text logs = some text) {entry : Nat × LogCall} (quiet : ¬ source.Disturbs entry) :
    source.text (logs.step entry).2 = some text := by
  cases source with
  | failed thread =>
    rw [LogSource.text, lastFailLogs_step logs quiet]
    exact found
  | object handle => exact buildLogs_step logs found quiet
  | decoded thread =>
    rw [LogSource.text, lastErrorMsgs_step logs quiet]
    exact found

theorem text_final (found : source.text logs = some text) {between : LogHistory}
    (quiet : ∀ entry ∈ between, ¬ source.Disturbs entry) :
    source.text (final GraphLogs.step logs between) = some text := by
  induction between generalizing logs with
  | nil => exact found
  | cons entry rest ih =>
    exact ih (text_step found (quiet entry List.mem_cons_self)) fun other member =>
      quiet other (List.mem_cons_of_mem _ member)

theorem sizeCall_answer (found : source.text logs = some text) (reader : Nat) :
    logs.step (source.sizeCall reader) =
      (⟨.driver ZE_RESULT_SUCCESS, some ((text.length + 1) % 2 ^ 32), [], none⟩, logs) := by
  cases source with
  | failed thread =>
    rw [← Option.some.inj found]
    rfl
  | object handle =>
    have present : live logs.buildLogs handle = some text := found
    simp only [sizeCall, GraphLogs.step, withLive, present]
    rfl
  | decoded thread =>
    rw [← Option.some.inj found]
    rfl

theorem fetchCall_answer (found : source.text logs = some text) (reader : Nat) {size : Nat} (sized : size ≠ 0) :
    (logs.step (source.fetchCall reader size)).1 =
      ⟨.driver ZE_RESULT_SUCCESS, some (min size ((text.length + 1) % 2 ^ 32)),
        (text ++ [0]).take (min size ((text.length + 1) % 2 ^ 32)), none⟩ := by
  cases source with
  | failed thread =>
    rw [← Option.some.inj found]
    rfl
  | object handle =>
    have present : live logs.buildLogs handle = some text := found
    simp only [fetchCall, GraphLogs.step, withLive, present]
    rfl
  | decoded thread =>
    rw [← Option.some.inj found]
    simp only [fetchCall, GraphLogs.step, LogAnswer.fetchSized, if_neg sized]
    rfl

/-- The size is asked for, and then the log is fetched: whatever the threads do in between that leaves the log alone,
it arrives as a whole, with its end. -/
theorem fetched_whole (found : source.text logs = some text) (small : text.length + 1 < 2 ^ 32) {between : LogHistory}
    (quiet : ∀ entry ∈ between, ¬ source.Disturbs entry) (reader : Nat) :
    let asked := logs.step (source.sizeCall reader)
    asked.1.pSize = some (text.length + 1) ∧
      ((final GraphLogs.step asked.2 between).step (source.fetchCall reader (text.length + 1))).1 =
        ⟨.driver ZE_RESULT_SUCCESS, some (text.length + 1), text ++ [0], none⟩ := by
  have whole : (text.length + 1) % 2 ^ 32 = text.length + 1 := Nat.mod_eq_of_lt small
  have length : (text ++ [0]).length = text.length + 1 := List.length_append
  intro asked
  have answer : asked = _ := sizeCall_answer found reader
  rw [answer, whole]
  refine ⟨rfl, ?_⟩
  rw [fetchCall_answer (text_final found quiet) reader (Nat.succ_ne_zero _), whole, min_self,
    List.take_of_length_le (Nat.le_of_eq length)]

/-- Between the two calls of the first thread the second one fails as well. -/
theorem fetched_whole_other_thread :
    let logs : GraphLogs := ⟨fun _ => [65, 66], fun _ => [], []⟩
    let asked := logs.step ((LogSource.failed 1).sizeCall 0)
    asked.1.pSize = some (([65, 66] : List UInt8).length + 1) ∧
      ((final GraphLogs.step asked.2 [(2, .create true true true (GraphLogs.refusedBlob [67]))]).step
          ((LogSource.failed 1).fetchCall 0 (([65, 66] : List UInt8).length + 1))).1 =
        ⟨.driver ZE_RESULT_SUCCESS, some (([65, 66] : List UInt8).length + 1), [65, 66] ++ [0], none⟩ :=
  fetched_whole rfl (by decide) (by simp [Disturbs]) 0

end LogSource

end NpuDriver
