import NpuDriver.Library.HandleTable
import NpuDriver.Library.Observation
import NpuDriver.Library.ResourceLog
import NpuDriver.LevelZero.Graph

/-! The calls of the driver into the compiler library, and the handles that the library opens for them. -/

namespace NpuDriver

open Library

/-- `vcl_result_t`; `other` is a value without an enumerator. -/
inductive VclResult where
  | SUCCESS | OUT_OF_MEMORY | UNSUPPORTED_FEATURE | INVALID_ARGUMENT | INVALID_NULL_HANDLE | IO_ERROR | INVALID_IR | UNKNOWN
  | other
deriving DecidableEq, Repr

/-- The results of the calls that reach the compiler. `thrown` is an exception that leaves the function. -/
inductive CompilerResult where
  | SUCCESS | OUT_OF_HOST_MEMORY | UNSUPPORTED_FEATURE | INVALID_ARGUMENT | INVALID_NULL_HANDLE | MODULE_BUILD_FAILURE
  | UNKNOWN | UNSUPPORTED_VERSION | DEPENDENCY_UNAVAILABLE | UNINITIALIZED | UNSUPPORTED_ENUMERATION | thrown
deriving DecidableEq, Repr

def vclToL0Err : VclResult → CompilerResult
  | .SUCCESS => .SUCCESS
  | .OUT_OF_MEMORY => .OUT_OF_HOST_MEMORY
  | .UNSUPPORTED_FEATURE => .UNSUPPORTED_FEATURE
  | .INVALID_ARGUMENT => .INVALID_ARGUMENT
  | .INVALID_NULL_HANDLE => .INVALID_NULL_HANDLE
  | .IO_ERROR => .MODULE_BUILD_FAILURE
  | .INVALID_IR => .UNSUPPORTED_FEATURE
  | .UNKNOWN | .other => .UNKNOWN

inductive VclHandleKind where
  | compiler | query | profiling
deriving DecidableEq, Repr

/-- Handles are numbered in the order in which the library opens them. -/
structure VclHandle where
  kind : VclHandleKind
  number : Nat
deriving DecidableEq, Repr

/-- `QueryNetwork`. -/
structure QueryNetwork where
  compiler : VclHandle
  query : VclHandle
deriving DecidableEq, Repr

/-- The library and what the driver has of it: the versions and the properties that it reported, and the query
networks. The two symbols for options may be missing. -/
structure VclState where
  compiler : Compiler
  profilingMajor : UInt16
  getCompilerSupportedOptions : Bool
  getCompilerIsOptionSupported : Bool
  opened : Nat
  log : List (ResourceEvent VclHandle)
  queries : List (Option QueryNetwork)

/-- The calls with the answers of the library. -/
inductive VclCall where
  | compilerInit (version : VclResult × UInt16 × UInt16) (create : VclResult) (properties : VclResult × CompilerProperties)
  | getCompiledBlob (create executable : VclResult)
  | getSupportedOptions (vpuDevice : Bool) (create options : VclResult)
  | isOptionSupported (vpuDevice : Bool) (create option : VclResult)
  | getDecodedProfilingBuffer (create decode : VclResult) (size pSize : Nat)
  | createQuery (ngraphLite deviceContext : Bool) (create query : VclResult)
  | getSupportedLayers (query : Nat) (layers : VclResult)
  | destroyQuery (query : Nat)
deriving DecidableEq, Repr

/-- `VCL_PROFILING_VERSION_MAJOR`. -/
def profilingVersionMajor : UInt16 := 2

namespace VclState

/-- A library that is not loaded has `missingSymbol` for each of its functions. -/
def reply (state : VclState) (result : VclResult) : VclResult := if state.compiler.loaded then result else .UNKNOWN

def openHandle (state : VclState) (kind : VclHandleKind) : VclHandle × VclState :=
  (⟨kind, state.opened⟩, { state with opened := state.opened + 1, log := .obtained ⟨kind, state.opened⟩ :: state.log })

def closeHandle (state : VclState) (handle : VclHandle) : VclState :=
  { state with log := .released handle :: state.log }

def isVclCompilerApiCompatible (state : VclState) : Bool := state.compiler.apiMajor == compilerVersionMajor

def isVclProfilingApiCompatible (state : VclState) : Bool := state.profilingMajor == profilingVersionMajor

def compilerCreate (state : VclState) (create : VclResult) : Except CompilerResult (VclHandle × VclState) :=
  if !state.isVclCompilerApiCompatible then .error .UNSUPPORTED_VERSION
  else if state.reply create = .SUCCESS then .ok (state.openHandle .compiler)
  else .error (vclToL0Err (state.reply create))

/-- A compiler is created, works and is destroyed whatever the work came to. -/
def withCompiler (state : VclState) (create work : VclResult) : CompilerResult × VclState :=
  match state.compilerCreate create with
  | .error result => (result, state)
  | .ok (compiler, next) => (vclToL0Err work, next.closeHandle compiler)

def compilerInit (state : VclState) (version : VclResult × UInt16 × UInt16) (create : VclResult)
    (properties : VclResult × CompilerProperties) : CompilerResult × VclState :=
  if !state.compiler.loaded then (.UNSUPPORTED_FEATURE, state)
  else if version.1 ≠ .SUCCESS then (vclToL0Err version.1, state)
  else
    let versioned :=
      { state with compiler := { state.compiler with apiMajor := version.2.1 }, profilingMajor := version.2.2 }
    match versioned.withCompiler create properties.1 with
    | (.SUCCESS, next) => (.SUCCESS, { next with compiler := { next.compiler with properties := properties.2 } })
    | (result, next) => (result, next)

def getCompiledBlob (state : VclState) (create executable : VclResult) : CompilerResult × VclState :=
  if !state.compiler.loaded then (.UNSUPPORTED_FEATURE, state)
  else state.withCompiler create executable

def getSupportedOptions (state : VclState) (vpuDevice : Bool) (create options : VclResult) : CompilerResult × VclState :=
  if !state.compiler.loaded then (.UNSUPPORTED_FEATURE, state)
  else if !state.getCompilerSupportedOptions then (.DEPENDENCY_UNAVAILABLE, state)
  else if !vpuDevice then (.UNKNOWN, state)
  else state.withCompiler create options

def isOptionSupported (state : VclState) (vpuDevice : Bool) (create option : VclResult) : CompilerResult × VclState :=
  if !state.compiler.loaded then (.UNSUPPORTED_FEATURE, state)
  else if !state.getCompilerIsOptionSupported then (.DEPENDENCY_UNAVAILABLE, state)
  else if !vpuDevice then (.UNKNOWN, state)
  else state.withCompiler create option

/-- `size` is that of the decoded data, `pSize` the caller's. -/
def getDecodedProfilingBuffer (state : VclState) (create decode : VclResult) (size pSize : Nat) :
    CompilerResult × VclState :=
  if !state.compiler.loaded then (.UNSUPPORTED_FEATURE, state)
  else if !state.isVclProfilingApiCompatible then (.UNSUPPORTED_VERSION, state)
  else if create ≠ .SUCCESS then (vclToL0Err create, state)
  else
    match state.openHandle .profiling with
    | (profHandle, next) =>
      if decode ≠ .SUCCESS then (vclToL0Err decode, next.closeHandle profHandle)
      -- the cast to 32 bits throws past the end of the function
      else if (pSize = 0 ∨ size < pSize) ∧ (safeCastU32 size).isNone then (.thrown, next)
      else (.SUCCESS, next.closeHandle profHandle)

/-- `QueryNetwork::create`. -/
def createQuery (state : VclState) (ngraphLite deviceContext : Bool) (create query : VclResult) :
    CompilerResult × VclState :=
  if !ngraphLite then (.UNSUPPORTED_ENUMERATION, state)
  else if !state.isVclCompilerApiCompatible then (.UNSUPPORTED_VERSION, state)
  else if !deviceContext then (.UNINITIALIZED, state)
  else
    match state.compilerCreate create with
    | .error result => (result, state)
    | .ok (compiler, created) =>
      if query ≠ .SUCCESS then (vclToL0Err query, created)
      else
        match created.openHandle .query with
        | (queryHandle, next) => (.SUCCESS, { next with queries := next.queries ++ [some ⟨compiler, queryHandle⟩] })

def step (state : VclState) : VclCall → CompilerResult × VclState
  | .compilerInit version create properties => state.compilerInit version create properties
  | .getCompiledBlob create executable => state.getCompiledBlob create executable
  | .getSupportedOptions vpuDevice create options => state.getSupportedOptions vpuDevice create options
  | .isOptionSupported vpuDevice create option => state.isOptionSupported vpuDevice create option
  | .getDecodedProfilingBuffer create decode size pSize => state.getDecodedProfilingBuffer create decode size pSize
  | .createQuery ngraphLite deviceContext create query => state.createQuery ngraphLite deviceContext create query
  | .getSupportedLayers query layers => withLive state.queries query (.INVALID_NULL_HANDLE, state) fun _ => (vclToL0Err layers, state)
  | .destroyQuery query =>
    withLive state.queries query (.INVALID_NULL_HANDLE, state) fun network =>
      (.SUCCESS,
        { (state.closeHandle network.query).closeHandle network.compiler with
          queries := state.queries.set query none })

/-- The driver before `compilerInit`. -/
def new (loaded supportedOptions isOptionSupported : Bool) : VclState where
  compiler := ⟨loaded, 0, ⟨[], 0, 0, 0⟩⟩
  profilingMajor := 0
  getCompilerSupportedOptions := supportedOptions
  getCompilerIsOptionSupported := isOptionSupported
  opened := 0
  log := []
  queries := []

end VclState

end NpuDriver
