import CrashCapture.Environment

namespace CrashCapture

namespace Watchdog

def failureCode : Nat := 1

/-- The exit code of a program that panics. -/
def panicCode : Nat := 101

/-- Watches a process, and returns the exit code. Until that process is gone, anything may happen. Then
it panics if a report can't be made. -/
def runDuring (meanwhile : Run Unit) (arguments : List String) : Run Nat := do
  let launched ← get
  match WatchdogCommand.parse arguments launched.isText with
  | .error refusal => return refusal.exitCode
  | .ok command =>
    match Watch.start launched.files command with
    | .error _ => return failureCode
    | .ok watch =>
      meanwhile
      let gone ← get
      if !watch.isReportable gone.isText gone.files then return panicCode
      let id ← Run.newUuid
      match ← Run.disk (watch.finish id) with
      | .ok () => return 0
      | .error _ => return failureCode

/-- Watches a process that is already gone. -/
def run (arguments : List String) : Run Nat := runDuring (pure ()) arguments

/-- What is written to the output: the help, if that is asked for. -/
def output (arguments : List String) : String :=
  match WatchdogCommand.parse arguments with
  | .error refusal => refusal.output WatchdogCommand.program WatchdogCommand.specs
  | .ok _ => ""

end Watchdog

end CrashCapture
