import CrashCapture.Database.Layout
import CrashCapture.Watchdog.Command

namespace CrashCapture

/-- A watchdog at work. The settings are those at its launch. -/
structure Watch where
  command : WatchdogCommand
  settings : Settings
deriving DecidableEq, Repr

namespace Watch

/-- Nothing is watched without settings. -/
def start (files : FileTree) (command : WatchdogCommand) : Except Error Watch := do
  return ⟨command, ← Database.settingsIn files command.database⟩

/-- The path and the size of an attachment, if it is there. -/
def attachment? (size : Path → Option Nat) (path : Path) : Option Json :=
  (size path).map fun n => .object [("path", .str path), ("size", .ofNat n)]

/-- A key and its value around the first equals sign. -/
def annotation? (text : String) : Option (String × Json) :=
  (Text.splitFirst '=' text.toList).map fun (k, v) => (.ofList k, .str (.ofList v))

def optional : Option String → Json
  | some s => .str s
  | none => .null

/-- Of annotations with the same key the last one counts. -/
def report (w : Watch) (id : Uuid) (size : Path → Option Nat) : Json := .object [
  ("id", .str id.hyphenated),
  ("client_id", .str w.settings.clientId.hyphenated),
  ("monitored_pid", .ofNat w.command.monitorPid),
  ("url", optional w.command.url),
  ("uploads_enabled", .bool w.settings.uploadsEnabled),
  ("rate_limited", .bool !w.command.noRateLimit),
  ("annotations", .object (w.command.annotations.filterMap annotation?)),
  ("attachments", .arr (w.command.attachments.filterMap (attachment? size)))]

def reportPath (w : Watch) (id : Uuid) : Path :=
  Path.join (Database.reportsPath w.command.database) (id.hyphenated ++ ".json")

/-- Whether a report can be made of what is there: in it the paths of attachments are text. -/
def isReportable (w : Watch) (isText : Path → Bool) (files : FileTree) : Bool :=
  w.command.attachments.all fun p => isText p || !(files.size p).isOk

/-- Writes the report; the watched process is gone. -/
def finish (w : Watch) (id : Uuid) : Disk Unit := do
  let files ← get
  let size (p : Path) : Option Nat := (files.size p).toOption
  Disk.writeFile (w.reportPath id) ((w.report id size).encodePretty 0)

end Watch

end CrashCapture
