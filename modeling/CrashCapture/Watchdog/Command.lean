import CrashCapture.CommandLine.Help
import CrashCapture.Path
import CrashCapture.Text.Unsigned

namespace CrashCapture

structure WatchdogCommand where
  database : Path
  metricsDirectory : Option Path
  url : Option String
  handler : Option Path
  monitorPid : Nat
  noRateLimit : Bool
  annotations : List String
  attachments : List Path
deriving DecidableEq, Repr

namespace WatchdogCommand

def maxPid : Nat := Nat.pow 2 32 - 1

def parsePid (s : String) : Option Nat := Text.parseUnsigned maxPid s.toList

open CommandLine

def program : String := "crash-watchdog"

/-- Paths need not be text, but what is taken as text does. -/
def specs (isText : String → Bool := anyText) : List Spec := [
  { name := "database", arity := .single, accepts := isPath, isRequired := true
    about := "The crash report database" },
  { name := "metrics-dir", arity := .single, accepts := isPath },
  { name := "url", arity := .single, accepts := isText
    about := "Where reports are submitted to" },
  { name := "handler", arity := .single, accepts := isPath
    about := "The path this handler was launched from" },
  { name := "monitor-pid", arity := .single, accepts := fun s => (parsePid s).isSome
    isRequired := true, about := "The process to watch" },
  { name := "no-rate-limit", arity := .flag, accepts := anyText },
  { name := "annotation", arity := .repeated, accepts := isText
    about := "`key=value` pairs added to every report" },
  { name := "attachment", arity := .repeated, accepts := isPath
    about := "Files attached to every report" }]

def ofGiven (g : Given) : Except Refusal WatchdogCommand := do
  let database ← required "database" g
  let pid ← required "monitor-pid" g
  return {
    database := database
    metricsDirectory := g.value? "metrics-dir"
    url := g.value? "url"
    handler := g.value? "handler"
    monitorPid := (parsePid pid).getD 0
    noRateLimit := g.has "no-rate-limit"
    annotations := g.all "annotation"
    attachments := g.all "attachment" }

def parse (arguments : List String) (isText : String → Bool := anyText) :
    Except Refusal WatchdogCommand := do
  ofGiven (← read (specs isText) [] arguments)

end WatchdogCommand

end CrashCapture
