import ClasspathLookup.Environment.Basic

/-!
# Cancellable queries

A guarded environment asks its monitor before it does any work. A cancelled query fails, which is
not the same as finding nothing, and leaves the environment as it was.
-/

namespace ClasspathLookup

/-- What tells whether the caller gave up: a token, a token that also hears its parent, or a flag.
Of these only a flag can be lowered again. -/
inductive Monitor where
  | token (cancelled : Bool)
  | child (parentCancelled cancelled : Bool)
  | flag (raised : Bool)
deriving DecidableEq, Repr

namespace Monitor

def isCancelled : Monitor → Bool
  | .token cancelled => cancelled
  | .child parentCancelled cancelled => parentCancelled || cancelled
  | .flag raised => raised

/-- Gives up; a child is reached through its parent. -/
def cancel : Monitor → Monitor
  | .token _ => .token true
  | .child _ cancelled => .child true cancelled
  | .flag _ => .flag true

/-- Raises or lowers a flag; tokens are not affected. -/
def setFlag (monitor : Monitor) (raised : Bool) : Monitor :=
  match monitor with
  | .flag _ => .flag raised
  | .token _ | .child _ _ => monitor

@[simp] theorem isCancelled_cancel (monitor : Monitor) : monitor.cancel.isCancelled = true := by
  cases monitor <;> rfl

end Monitor

inductive LookupError where
  | aborted
deriving DecidableEq, Repr

def LookupError.message : LookupError → String
  | .aborted => "lookup aborted: cancellation requested"

structure GuardedEnvironment where
  environment : Environment
  monitor : Option Monitor := none

namespace GuardedEnvironment

def isCancelled (guarded : GuardedEnvironment) : Bool :=
  guarded.monitor.any Monitor.isCancelled

/-- Runs a query past the monitor. -/
def runUnguarded {α : Type} (guarded : GuardedEnvironment) (disk : Disk)
    (query : Environment → Lookup α) : α × GuardedEnvironment :=
  let (value, environment) := guarded.environment.run disk (query guarded.environment)
  (value, { guarded with environment := environment })

def run {α : Type} (guarded : GuardedEnvironment) (disk : Disk)
    (query : Environment → Lookup α) : Except LookupError α × GuardedEnvironment :=
  if guarded.isCancelled then (.error .aborted, guarded)
  else
    let (value, guarded) := guarded.runUnguarded disk query
    (.ok value, guarded)

def setMonitor (guarded : GuardedEnvironment) (monitor : Option Monitor) : GuardedEnvironment :=
  { guarded with monitor := monitor }

def cancel (guarded : GuardedEnvironment) : GuardedEnvironment :=
  { guarded with monitor := guarded.monitor.map Monitor.cancel }

def addProject (guarded : GuardedEnvironment) (disk : Disk) (projects : Projects)
    (project : String) : Nat × GuardedEnvironment :=
  let (added, environment) := guarded.environment.addProject disk projects project
  (added, { guarded with environment := environment })

/-- Never held up by a monitor. -/
def cleanup (guarded : GuardedEnvironment) : GuardedEnvironment :=
  { guarded with environment := guarded.environment.cleanup }

end GuardedEnvironment

end ClasspathLookup
