import NpuDriver.Command.Command
import NpuDriver.Library.SharedPool
import Mathlib.Logic.Function.Basic

/-! The parsed inferences of one graph and the commands that hold them. -/

namespace NpuDriver

open Library

/-- An `elf::HostParsedInference`; its contents are what the loader keeps of it, its own buffers included. -/
structure LoadedInference (Contents : Type) where
  isLoaded : Bool
  contents : Contents

/-- The inferences are named by the order in which they were made. -/
structure HostParsedInferenceManager where
  headHpi : Nat
  hpis : List Nat
  loaded : Bool
deriving DecidableEq, Repr

/-- What `copyHostParsedInference` comes to. -/
inductive CopyReply (Contents : Type) where
  | copied (contents : Contents)
  | nullptr
  | thrown

/-- How the loader answers one `acquire`: whether the original loads, and what a copy of it is like. -/
structure LoaderReplies (Contents : Type) where
  load : Contents → Bool × Contents
  copy : Contents → CopyReply Contents

/-- A parser with its inferences. `holders` are the inference commands, and the calls that are creating one. -/
structure ParserState (Contents : Type) where
  manager : HostParsedInferenceManager
  inferences : Nat → LoadedInference Contents
  created : Nat
  holders : List (Option Nat)

inductive InferenceCall (Contents : Type) where
  | acquire (replies : LoaderReplies Contents)
  | applyInputOutputs (holder : Nat) (patch : Contents → Bool × Contents)
  | release (holder : Nat)

/-- The answers to one `createInferenceExecuteCommand`: the inference's id, the loader, the lookups of the
inference's buffers, the patching, and the constructor. -/
structure CreationReplies (Contents : Type) where
  inferenceId : Bool
  loader : LoaderReplies Contents
  found : Bool
  patch : Contents → Bool × Contents
  constructed : Bool

variable {Contents : Type}

namespace ParserState

/-- Everything the manager holds. -/
def cached (state : ParserState Contents) : List Nat := state.manager.headHpi :: state.manager.hpis

/-- `use_count() == 1`. -/
def idle (state : ParserState Contents) (hpi : Nat) : Bool := useCount state.cached state.holders hpi == 1

def load (state : ParserState Contents) (replies : LoaderReplies Contents) : Bool × ParserState Contents :=
  if state.manager.loaded then (true, state)
  else
    let head := state.manager.headHpi
    let result := replies.load (state.inferences head).contents
    (result.1,
      { state with
        manager := { state.manager with loaded := result.1 }
        inferences := Function.update state.inferences head ⟨result.1, result.2⟩ })

def copyHead (state : ParserState Contents) (replies : LoaderReplies Contents) :
    Except CreateError Nat × ParserState Contents :=
  let head := state.inferences state.manager.headHpi
  match replies.copy head.contents with
  | .nullptr => (.error .nullptr, state)
  | .thrown => (.error .thrown, state)
  | .copied contents =>
    (.ok state.created,
      { state with
        manager := { state.manager with hpis := state.manager.hpis ++ [state.created] }
        inferences := Function.update state.inferences state.created ⟨head.isLoaded, contents⟩
        created := state.created + 1 })

/-- `HostParsedInferenceManager::acquire`. -/
def acquire (state : ParserState Contents) (replies : LoaderReplies Contents) :
    Except CreateError Nat × ParserState Contents :=
  match state.load replies with
  | (false, next) => (.error .thrown, next)
  | (true, next) =>
    if next.idle next.manager.headHpi then (.ok next.manager.headHpi, next)
    else
      match next.manager.hpis.find? next.idle with
      | some hpi => (.ok hpi, next)
      | none => next.copyHead replies

/-- Whoever called `acquire` holds what it returned. -/
def hold (state : ParserState Contents) (replies : LoaderReplies Contents) : ParserState Contents :=
  match state.acquire replies with
  | (.error _, next) => next
  | (.ok hpi, next) => { next with holders := next.holders ++ [some hpi] }

/-- The loader patches the holder's inference, also where it throws in the end. -/
def applyInputOutputs (state : ParserState Contents) (holder : Nat) (patch : Contents → Bool × Contents) :
    Bool × ParserState Contents :=
  match state.holders[holder]? with
  | some (some hpi) =>
    let inference := state.inferences hpi
    ((patch inference.contents).1,
      { state with
        inferences := Function.update state.inferences hpi ⟨inference.isLoaded, (patch inference.contents).2⟩ })
  | _ => (false, state)

def release (state : ParserState Contents) (holder : Nat) : ParserState Contents :=
  { state with holders := state.holders.set holder none }

def step (state : ParserState Contents) : InferenceCall Contents → ParserState Contents
  | .acquire replies => state.hold replies
  | .applyInputOutputs holder patch => (state.applyInputOutputs holder patch).2
  | .release holder => state.release holder

/-- The local reference is passed on to the command, or dropped where there is none. -/
def createInferenceExecuteCommand (state : ParserState Contents) (replies : CreationReplies Contents) :
    ParserState Contents :=
  if !replies.inferenceId then state
  else
    let cmdHpi := state.holders.length
    let holding := state.hold replies.loader
    if holding.holders.length = cmdHpi then holding
    else if !replies.found then holding.release cmdHpi
    else
      let applied := holding.applyInputOutputs cmdHpi replies.patch
      if applied.1 && replies.constructed then applied.2 else applied.2.release cmdHpi

/-- A parser that has just been made. -/
def initial (original : Contents) : ParserState Contents where
  manager := ⟨0, [], false⟩
  inferences := fun _ => ⟨false, original⟩
  created := 1
  holders := []

end ParserState

end NpuDriver
