import CrashCapture.Database.Layout
import CrashCapture.Environment

namespace CrashCapture

/-- A database of crash reports: a directory with the settings, which a handler process reads when
it is launched, and a directory into which it writes reports. -/
structure Database where
  path : Path
  settings : Settings
deriving DecidableEq, Repr

namespace Database

def readSettings (path : Path) (access : Access := .full) : Run (Except Error Settings) :=
  return settingsIn (← get).files path access

def writeSettings (db : Database) (access : Access := .full) : Run (Except Error Unit) := do
  return (← Run.disk (replaceSettings db.path db.settings access)).mapError (.database db.path)

/-- Opens a database, making it if there is none. Settings that can't be read are replaced. -/
def openAt (path : Path) (access : Access := .full) : Run (Except Error Database) := do
  match ← Run.disk (Disk.createDirectories (reportsPath path)) with
  | .error e => return .error (.database path e)
  | .ok () =>
    let fresh : Database := ⟨path, .fresh (← Run.newUuid)⟩
    match ← readSettings path access with
    | .ok settings => return .ok { fresh with settings }
    | .error e =>
      match e with
      | .database _ (.os 2) => pure ()
      | _ => Run.debug ("discarding unreadable database settings: " ++ e.message)
      return (← fresh.writeSettings access).map fun () => fresh

/-- Keeps the consent, on disk as well if it is another one. -/
def setUploadsEnabled (enabled : Bool) (db : Database) : Run (Database × Except Error Unit) := do
  if db.settings.uploadsEnabled = enabled then return (db, .ok ())
  let db := { db with settings := { db.settings with uploadsEnabled := enabled } }
  return (db, ← db.writeSettings)

end Database

end CrashCapture
