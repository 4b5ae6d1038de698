import NpuDriver.Library.Runs
import NpuDriver.Device.Timer

/-! The thread that releases a context's cached memory when the context has been idle for long enough. -/

namespace NpuDriver

open Library

/-- `ResourceCleaner::Action`. -/
inductive CleanerAction where
  | NOP | PRUNE_AFTER_TIMEOUT | BREAK
deriving DecidableEq, Repr

/-- `time_point::max()`. -/
def timePointMax : Int := INT64_MAX

/-- `steady_clock::now() + idleTimeout`. Both the count of nanoseconds and the sum are signed 64-bit numbers, and
an overflow, `none`, aborts the process. -/
def addMilliseconds (now idleTimeout : Int) : Option Int :=
  (addInt64 0 (idleTimeout * 1000000)).bind (addInt64 now)

/-- Where the thread stands: before it has the mutex, at the condition of the loop, asleep, awake but without the
mutex, at the comparison with `PRUNE_AFTER_TIMEOUT`, inside `releaseMemory`, or at its end. -/
inductive CleanerPoint where
  | starting
  | looping (timeout : Int)
  | waiting (timeout : Int)
  | woken (timeout : Int)
  | checking (timeout : Int)
  | releasing
  | finished
  | aborted
deriving DecidableEq, Repr

def CleanerPoint.holdsMutex : CleanerPoint → Bool
  | .looping _ | .checking _ | .releasing => true
  | _ => false

/-- Where the callers stand, which the mutex of the context keeps apart: inside the constructor, behind a call,
between the change of a call or of the destructor and its `notify_one`, inside `join`, or behind it. -/
inductive CleanerCaller where
  | constructing
  | free
  | notifying
  | breaking
  | joining
  | joined
deriving DecidableEq, Repr

/-- A history. `waited` tells that the thread had the mutex before. -/
inductive CleanerEvent where
  | idle (time : Int) (waited : Bool)
  | armed (time timeout deadline : Int)
  | released (time : Int)
  | aborted (time : Int)
deriving DecidableEq, Repr

/-- `action` is `none` as long as the storage holds none of the enumerators. The newest event is the first of `log`. -/
structure ResourceCleaner where
  idleTimeout : Int
  action : Option CleanerAction
  now : Int
  thread : CleanerPoint
  caller : CleanerCaller
  log : List CleanerEvent
deriving DecidableEq, Repr

/-- The steps of the thread, of the callers, of the clock, and the wake-ups that nobody asked for. -/
inductive CleanerStep where
  | elapse (time : Nat)
  | wake
  | run
  | initAction
  | setIdle
  | setIdleTimeout (timeout : Int)
  | destroy
  | notify
  | join
deriving DecidableEq, Repr

namespace ResourceCleaner

/-- The thread is started before `action` is initialised: the storage holds what it held. -/
def new (storage : Option CleanerAction) (timeout now : Int) : ResourceCleaner where
  idleTimeout := timeout
  action := storage
  now := now
  thread := .starting
  caller := .constructing
  log := []

/-- What the thread does next; asleep it does nothing. A wait that returned has timed out when the clock says so,
whatever woke it. -/
def run (cleaner : ResourceCleaner) : ResourceCleaner :=
  match cleaner.thread with
  | .starting => { cleaner with thread := .looping timePointMax }
  | .looping timeout =>
    if cleaner.action = some .BREAK then { cleaner with thread := .finished }
    else { cleaner with thread := .waiting timeout }
  | .woken timeout =>
    if timeout ≤ cleaner.now then
      { cleaner with thread := .releasing, log := .released cleaner.now :: cleaner.log }
    else { cleaner with thread := .checking timeout }
  | .checking timeout =>
    if cleaner.action = some .PRUNE_AFTER_TIMEOUT then
      match addMilliseconds cleaner.now cleaner.idleTimeout with
      | some deadline =>
        { cleaner with
          thread := .looping deadline
          log := .armed cleaner.now cleaner.idleTimeout deadline :: cleaner.log }
      | none => { cleaner with thread := .aborted, log := .aborted cleaner.now :: cleaner.log }
    else { cleaner with thread := .looping timeout }
  | .releasing => { cleaner with thread := .looping timePointMax }
  | .waiting _ | .finished | .aborted => cleaner

/-- Whatever the reason, a thread that sleeps is awake. -/
def wake (cleaner : ResourceCleaner) : ResourceCleaner :=
  match cleaner.thread with
  | .waiting timeout => { cleaner with thread := .woken timeout }
  | _ => cleaner

def setIdle (cleaner : ResourceCleaner) : ResourceCleaner :=
  if cleaner.caller = .free ∧ cleaner.thread.holdsMutex = false then
    { cleaner with
      action := some .PRUNE_AFTER_TIMEOUT
      caller := .notifying
      log := .idle cleaner.now (decide (cleaner.thread ≠ .starting)) :: cleaner.log }
  else cleaner

/-- The new timeout is written without the mutex. -/
def setIdleTimeout (cleaner : ResourceCleaner) (timeout : Int) : ResourceCleaner :=
  if cleaner.caller = .free then { cleaner with idleTimeout := timeout, caller := .notifying } else cleaner

/-- The block of the destructor. -/
def destroy (cleaner : ResourceCleaner) : ResourceCleaner :=
  if cleaner.caller = .free ∧ cleaner.thread.holdsMutex = false then
    { cleaner with action := some .BREAK, caller := .breaking }
  else cleaner

/-- `notify_one` reaches the thread only when it sleeps. -/
def notify (cleaner : ResourceCleaner) : ResourceCleaner :=
  match cleaner.caller with
  | .notifying => { cleaner.wake with caller := .free }
  | .breaking => { cleaner.wake with caller := .joining }
  | _ => cleaner

def elapse (cleaner : ResourceCleaner) (time : Nat) : ResourceCleaner :=
  if cleaner.now + time < timePointMax then { cleaner with now := cleaner.now + time } else cleaner

def act (cleaner : ResourceCleaner) : CleanerStep → ResourceCleaner
  | .elapse time => cleaner.elapse time
  | .wake => cleaner.wake
  | .run => cleaner.run
  | .initAction =>
    if cleaner.caller = .constructing then { cleaner with action := some .NOP, caller := .free } else cleaner
  | .setIdle => cleaner.setIdle
  | .setIdleTimeout timeout => cleaner.setIdleTimeout timeout
  | .destroy => cleaner.destroy
  | .notify => cleaner.notify
  | .join =>
    if cleaner.caller = .joining ∧ cleaner.thread = .finished then { cleaner with caller := .joined } else cleaner

/-- Behind an abort there is no process. -/
def step (cleaner : ResourceCleaner) (step : CleanerStep) : ResourceCleaner :=
  if cleaner.thread = .aborted then cleaner else cleaner.act step

/-- The state behind a series of steps. -/
def after (storage : Option CleanerAction) (timeout now : Int) (steps : List CleanerStep) : ResourceCleaner :=
  runFrom step (new storage timeout now) steps

end ResourceCleaner

end NpuDriver
