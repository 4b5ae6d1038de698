import Mathlib.Logic.Function.Basic
import NpuDriver.Library.HandleTable
import NpuDriver.LevelZero.Graph

/-! The logs of graph creations and of the profiling decoder, and how callers fetch them. -/

namespace NpuDriver

open Library ZeResult

/-- A result of the driver, or a code that it passes on. -/
inductive LogResult where
  | driver (result : ZeResult)
  | passed (code : Nat)
deriving DecidableEq, Repr

/-- How a part of a construction ends. An exception other than `DriverError` passes the handler of `Graph::create`. -/
inductive BuildEnd where
  | done
  | driverError (result : LogResult)
  | exception
deriving DecidableEq, Repr

/-- What a part that other code carries out appends to the log, and how it ends. -/
structure BuildPart where
  text : List UInt8
  outcome : BuildEnd
deriving DecidableEq, Repr

/-- A compilation behind the cache: how the options, the key and the lookup end, whether the blob is found, what the
compiler does, and how the blob is stored. -/
structure NGraphLite where
  cacheDisabled : Bool
  lookup : BuildEnd
  found : Bool
  compiler : BuildPart
  setBlob : BuildEnd
deriving DecidableEq, Repr

inductive GraphSource where
  | NATIVE
  | NGRAPH_LITE (compilation : NGraphLite)
  | other
deriving DecidableEq, Repr

/-- The construction of a graph. -/
structure GraphBuild where
  pInput : Bool
  inputSize : Nat
  source : GraphSource
  checkMagic : Bool
  parser : BuildPart
deriving DecidableEq, Repr

/-- The log of a construction, and the fail log of its thread. -/
structure BuildTexts where
  log : List UInt8
  lastFailLog : List UInt8
deriving DecidableEq, Repr

namespace BuildTexts

def append (texts : BuildTexts) (text : List UInt8) : BuildTexts := { texts with log := texts.log ++ text }

/-- The cache status goes to both texts. -/
def cacheStatus (texts : BuildTexts) (status : List UInt8) : BuildTexts := ⟨texts.log ++ status, status⟩

end BuildTexts

def cacheFound : List UInt8 := ascii "ZE DynamicCaching cache_status_t: cache_status_t::found\n"

def cacheStored : List UInt8 := ascii "ZE DynamicCaching cache_status_t: cache_status_t::stored\n"

/-- `Graph::getBlobContainerNGraphLite`, as far as it writes texts. -/
def NGraphLite.getBlobContainerNGraphLite (compilation : NGraphLite) (texts : BuildTexts) : BuildEnd × BuildTexts :=
  match compilation.lookup with
  | .done =>
    if !compilation.cacheDisabled && compilation.found then (.done, texts.cacheStatus cacheFound)
    else
      let compiled := texts.append compilation.compiler.text
      match compilation.compiler.outcome with
      | .done =>
        if compilation.cacheDisabled then (.done, compiled)
        else
          match compilation.setBlob with
          | .done => (.done, compiled.cacheStatus cacheStored)
          | failed => (failed, compiled)
      | failed => (failed, compiled)
  | failed => (failed, texts)

namespace GraphBuild

/-- What `Graph::initialize` does with a blob: the check of its magic number, and the parser. -/
def parse (build : GraphBuild) (texts : BuildTexts) : BuildEnd × BuildTexts :=
  if !build.checkMagic then
    (.driverError (.driver ZE_RESULT_ERROR_INVALID_NATIVE_BINARY),
      texts.append (ascii "[NPU_DRV] Failed to recognize native binary format\n"))
  else (build.parser.outcome, texts.append build.parser.text)

/-- `Graph::initialize`. -/
def initializeGraph (build : GraphBuild) (texts : BuildTexts) : BuildEnd × BuildTexts :=
  if !build.pInput then (.driverError (.driver ZE_RESULT_ERROR_INVALID_NULL_POINTER), texts)
  else if build.inputSize = 0 then (.driverError (.driver ZE_RESULT_ERROR_INVALID_SIZE), texts)
  else
    match build.source with
    | .NATIVE => build.parse texts
    | .NGRAPH_LITE compilation =>
      match compilation.getBlobContainerNGraphLite texts with
      | (.done, texts) => build.parse texts
      | failed => failed
    | .other =>
      (.driverError (.driver ZE_RESULT_ERROR_INVALID_ARGUMENT),
        texts.append (ascii "[NPU_DRV] Graph desc (ze_graph_desc_2_t) format invalid.\n"))

end GraphBuild

/-- The texts that are kept: one for each thread and kind, and one for each log object of the context. -/
structure GraphLogs where
  lastFailLogs : Nat → List UInt8
  lastErrorMsgs : Nat → List UInt8
  buildLogs : List (Option (List UInt8))

inductive LogCall where
  | create (pDesc phGraph phGraphBuildLog : Bool) (build : GraphBuild)
  | getLogString (pSize : Option Nat) (pBuildLog : Bool)
  | buildLogGetString (hGraphBuildLog : Nat) (pSize : Option Nat) (pBuildLog : Bool)
  | buildLogDestroy (hGraphBuildLog : Nat)
  | getData (pSize : Bool) (message : List UInt8) (error : Option Nat)
  | profilingGetString (pSize : Option Nat) (pProfilingLog : Bool)
deriving DecidableEq, Repr

/-- The size behind the call, the bytes that were written, and a new log object. -/
structure LogAnswer where
  result : LogResult
  pSize : Option Nat
  written : List UInt8
  phGraphBuildLog : Option Nat
deriving DecidableEq, Repr

namespace LogAnswer

def only (result : LogResult) : LogAnswer := ⟨result, none, [], none⟩

/-- `Graph::getLogString` and `GraphBuildLog::getLogString`: without a buffer the size is asked for. -/
def fetch (text : List UInt8) (pSize : Option Nat) (pBuildLog : Bool) : LogAnswer :=
  match pSize with
  | none => only (.driver ZE_RESULT_ERROR_INVALID_NULL_POINTER)
  | some size =>
    let whole := (text.length + 1) % 2 ^ 32
    if !pBuildLog then ⟨.driver ZE_RESULT_SUCCESS, some whole, [], none⟩
    else ⟨.driver ZE_RESULT_SUCCESS, some (min size whole), (text ++ [0]).take (min size whole), none⟩

/-- `GraphProfilingQuery::getLogString`: with a size of 0 the size is asked for. -/
def fetchSized (text : List UInt8) (pSize : Option Nat) (pProfilingLog : Bool) : LogAnswer :=
  match pSize with
  | none => only (.driver ZE_RESULT_ERROR_INVALID_NULL_POINTER)
  | some size =>
    let whole := (text.length + 1) % 2 ^ 32
    if size = 0 then ⟨.driver ZE_RESULT_SUCCESS, some whole, [], none⟩
    else if !pProfilingLog then ⟨.driver ZE_RESULT_ERROR_INVALID_NULL_POINTER, some size, [], none⟩
    else ⟨.driver ZE_RESULT_SUCCESS, some (min size whole), (text ++ [0]).take (min size whole), none⟩

end LogAnswer

namespace GraphLogs

/-- The result of `Graph::create` for its caller, which turns an exception into an unknown error. -/
def resultOf : BuildEnd → LogResult
  | .done => .driver ZE_RESULT_SUCCESS
  | .driverError result => result
  | .exception => .driver ZE_RESULT_ERROR_UNKNOWN

/-- `Graph::create`. The fail log is cleared, the construction may write to it, and a `DriverError` overwrites it with
the log. The log object exists from before the construction, also when that fails. -/
def create (logs : GraphLogs) (thread : Nat) (pDesc phGraph phGraphBuildLog : Bool) (build : GraphBuild) :
    LogAnswer × GraphLogs :=
  if !pDesc then (.only (.driver ZE_RESULT_ERROR_INVALID_NULL_POINTER), logs)
  else if !phGraph then (.only (.driver ZE_RESULT_ERROR_INVALID_NULL_POINTER), logs)
  else
    match build.initializeGraph ⟨[], []⟩ with
    | (outcome, texts) =>
      let lastFailLog :=
        match outcome with
        | .driverError _ => texts.log
        | _ => texts.lastFailLog
      (⟨resultOf outcome, none, [], if phGraphBuildLog then some logs.buildLogs.length else none⟩,
        { logs with
          lastFailLogs := Function.update logs.lastFailLogs thread lastFailLog
          buildLogs := if phGraphBuildLog then logs.buildLogs ++ [some texts.log] else logs.buildLogs })

/-- `GraphProfilingQuery::getData` for decoded data: the decoder appends to the thread's messages. -/
def getData (logs : GraphLogs) (thread : Nat) (pSize : Bool) (message : List UInt8) (error : Option Nat) :
    LogAnswer × GraphLogs :=
  if !pSize then (.only (.driver ZE_RESULT_ERROR_INVALID_NULL_POINTER), logs)
  else
    match error with
    | none => (.only (.driver ZE_RESULT_SUCCESS), logs)
    | some code =>
      (.only (.passed code),
        { logs with lastErrorMsgs := Function.update logs.lastErrorMsgs thread (logs.lastErrorMsgs thread ++ message) })

/-- One call by a thread. A log object that does not exist answers nothing. -/
def step (logs : GraphLogs) : Nat × LogCall → LogAnswer × GraphLogs
  | (thread, .create pDesc phGraph phGraphBuildLog build) => logs.create thread pDesc phGraph phGraphBuildLog build
  | (thread, .getLogString pSize pBuildLog) => (.fetch (logs.lastFailLogs thread) pSize pBuildLog, logs)
  | (_, .buildLogGetString hGraphBuildLog pSize pBuildLog) =>
    (withLive logs.buildLogs hGraphBuildLog (.only (.passed 0)) fun log => .fetch log pSize pBuildLog, logs)
  | (_, .buildLogDestroy hGraphBuildLog) =>
    (.only (.driver ZE_RESULT_SUCCESS), { logs with buildLogs := logs.buildLogs.set hGraphBuildLog none })
  | (thread, .getData pSize message error) => logs.getData thread pSize message error
  | (thread, .profilingGetString pSize pProfilingLog) =>
    (.fetchSized (logs.lastErrorMsgs thread) pSize pProfilingLog, logs)

/-- Before the first call. -/
def initial : GraphLogs := ⟨fun _ => [], fun _ => [], []⟩

/-- A call goes through a log object that exists. -/
def Valid (logs : GraphLogs) : Nat × LogCall → Prop
  | (_, .buildLogGetString hGraphBuildLog _ _) => (live logs.buildLogs hGraphBuildLog).isSome
  | (_, .buildLogDestroy hGraphBuildLog) => (live logs.buildLogs hGraphBuildLog).isSome
  | _ => True

end GraphLogs

end NpuDriver
