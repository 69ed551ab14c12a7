import CrashCapture.FileTree.Operations
import CrashCapture.Settings

namespace CrashCapture.Database

def settingsFile : String := "settings.json"
def reportsDirectory : String := "reports"

def settingsPath (path : Path) : Path := Path.join path settingsFile

/-- The settings are written here first. -/
def draftPath (path : Path) : Path := Path.join path "settings.json.tmp"

def reportsPath (path : Path) : Path := Path.join path reportsDirectory

def settingsIn (files : FileTree) (path : Path) (access : Access := .full) : Except Error Settings :=
  match files.read (settingsPath path) access with
  | .error e => .error (.database path e)
  | .ok bytes => (Settings.parse bytes).mapError .serialize

/-- Writes the settings to a file of their own and then moves it into place, so that nobody reads
them half written. -/
def replaceSettings (path : Path) (settings : Settings) (access : Access := .full) : Disk Unit := do
  Disk.writeFile (draftPath path) settings.render access
  Disk.rename (draftPath path) (settingsPath path)

end CrashCapture.Database
