import Mathlib.Data.List.Basic
import PsiphonAndroid.Log.Feedback
import PsiphonAndroid.Lib.Transition

/-!
# Delivery of log entries

How `MyLog` brings an entry into the log database: `storeLog` gives the insertion to an executor with one thread, a failed insertion is
given to it again, a few times, and after too many failures in a row the circuit opens and entries are dropped until a reset. The
executor runs its tasks one at a time, first in first out; what a task does happens when it finishes, so that a call that logs comes
before or behind it. Beside the fields an object carries the entries of all calls and the record of what was done with them.
-/

namespace PsiphonAndroid

open Lib

/-- `MAX_RETRIES`. -/
abbrev maxRetries : Nat := 3

/-- `RETRY_DELAYS_MS`. -/
def retryDelaysMs : List Nat := [100, 200, 500]

/-- `FAILURE_THRESHOLD`. -/
abbrev failureThreshold : Nat := 10

/-- `Log.ERROR`. -/
abbrev logError : Int32 := 6

/-- What `ContentResolver.insert` does: it returns a `Uri` or null, or throws one of the exceptions that are caught. -/
inductive InsertOutcome where
  | uri
  | null
  | securityException
  | illegalArgumentException
  | illegalStateException
  deriving DecidableEq

/-- A task of the executor. An entry is named by the number of the call that logged it; a retry has its delay. -/
inductive LogTask where
  | insert (entry : Nat) (values : LogEntry)
  | retry (entry : Nat) (values : LogEntry) (delay attempt : Nat)
  | circuitReset

/-- What is done with an entry: `insert` is called, a branch that drops it prints it to logcat, and it is dropped. -/
inductive LogAction where
  | inserted (entry : Nat) (outcome : InsertOutcome)
  | printed (entry : Nat)
  | dropped (entry : Nat)
  deriving DecidableEq

/-- `ArrayIndexOutOfBoundsException`. -/
inductive LogFault where
  | indexOutOfBounds
  deriving DecidableEq

/-- `MyLog`: the executor with the task it is running, the circuit breaker, the entries of all calls and the record. -/
structure MyLog where
  queue : List LogTask
  running : Option LogTask
  failureCount : Nat
  circuitOpen : Bool
  calls : List LogEntry
  trace : List LogAction

namespace MyLog

/-- The class when it is loaded. -/
def new : MyLog := ⟨[], none, 0, false, [], []⟩

/-- `executorService.execute`. -/
def execute (l : MyLog) (task : LogTask) : MyLog := { l with queue := l.queue ++ [task] }

/-- An entry in the record. -/
def act (l : MyLog) (actions : List LogAction) : MyLog := { l with trace := l.trace ++ actions }

/-- A branch of `insertWithRetry` that gives an entry up: from `Log.ERROR` on it is printed. -/
def dropEntry (l : MyLog) (entry : Nat) (values : LogEntry) : MyLog :=
  l.act ((if logError ≤ values.priority then [.printed entry] else []) ++ [.dropped entry])

/-- `scheduleCircuitReset`. -/
def scheduleCircuitReset (l : MyLog) : MyLog := l.execute .circuitReset

/-- `RETRY_DELAYS_MS[nextAttempt - 1]`; nothing where the index is out of bounds. -/
def retryDelay : Nat → Option Nat
  | 0 => none
  | n + 1 => retryDelaysMs[n]?

/-- `scheduleRetry`. -/
def scheduleRetry (l : MyLog) (entry : Nat) (values : LogEntry) (nextAttempt : Nat) : Except LogFault MyLog :=
  match retryDelay nextAttempt with
  | none => .error .indexOutOfBounds
  | some delay => .ok (l.execute (.retry entry values delay nextAttempt))

/-- `insertWithRetry`. A null result is thrown as an `IllegalStateException`. -/
def insertWithRetry (l : MyLog) (entry : Nat) (values : LogEntry) (attempt : Nat) (outcome : InsertOutcome) : Except LogFault MyLog :=
  if l.circuitOpen then .ok (l.dropEntry entry values) else
  let l := l.act [.inserted entry outcome]
  if outcome = .uri then .ok { l with failureCount := 0 } else
  let l := { l with failureCount := l.failureCount + 1 }
  if failureThreshold ≤ l.failureCount then
    let l := { l with circuitOpen := true }
    .ok (l.scheduleCircuitReset.dropEntry entry values)
  else if attempt < maxRetries then l.scheduleRetry entry values (attempt + 1)
  else .ok (l.dropEntry entry values)

/-- The task that is running, from its start to its end. -/
def runTask (l : MyLog) (outcome : InsertOutcome) : LogTask → Except LogFault MyLog
  | .insert entry values => l.insertWithRetry entry values 0 outcome
  | .retry entry values _ attempt => l.insertWithRetry entry values attempt outcome
  | .circuitReset => .ok { l with circuitOpen := false, failureCount := 0 }

/-- `storeLog`. -/
def storeLog (l : MyLog) (values : LogEntry) : MyLog :=
  { l.execute (.insert l.calls.length values) with calls := l.calls ++ [values] }

end MyLog

/-- A call that logs, the executor takes its next task, and the task finishes; `outcome` is what `insert` does in it. -/
inductive LogEvent where
  | storeLog (values : LogEntry)
  | take
  | finish (outcome : InsertOutcome)

/-- `MyLog` under every sequence of events; an exception ends the run. -/
def logSystem : System (Except LogFault MyLog) LogEvent where
  init s := s = .ok .new
  step s e :=
    match s, e with
    | .error _, _ => none
    | .ok l, .storeLog values => some (.ok (l.storeLog values))
    | .ok l, .take =>
      match l.running, l.queue with
      | none, task :: queue => some (.ok { l with running := some task, queue := queue })
      | _, _ => none
    | .ok l, .finish outcome =>
      match l.running with
      | none => none
      | some task => some ({ l with running := none }.runTask outcome task)

end PsiphonAndroid
