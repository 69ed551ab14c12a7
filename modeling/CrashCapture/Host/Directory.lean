import CrashCapture.Host

namespace CrashCapture

/-- A client that keeps all of its state in one directory. Until the first fault events are queued
in memory; from then on they are written to disk at once. -/
structure DirectoryHost where
  options : Options
  directory : Path
  user : String
  tags : Members String
  trail : List Json
  queue : List Bytes
  diskTransport : Bool
  envelopes : Nat
  consent : Bool

namespace DirectoryHost

def lastCrashFile : String := "last_crash"
def sessionFile : String := "session.json"
def envelopesDirectory : String := "envelopes"

def new (directory : Path) (options : Options) : Run (Except IoError DirectoryHost) := do
  match ← Run.disk (do
      Disk.createDirectories (Path.join directory envelopesDirectory)
      Disk.createDirectories options.runPath) with
  | .error e => return .error e
  | .ok () =>
    let pid := (← get).pid
    return .ok {
      options, directory, user := toString pid, tags := [], trail := [], queue := []
      diskTransport := false, envelopes := 0, consent := true }

def scope (h : DirectoryHost) : Members Json := Members.ofList [
  ("user", .object [("id", .str h.user)]),
  ("tags", .obj (h.tags.map fun (k, v) => (k, .str v))),
  ("breadcrumbs", .arr h.trail.reverse),
  ("modules", .object [])]

def setTag (key value : String) (h : DirectoryHost) : DirectoryHost :=
  { h with tags := h.tags.insert key value }

def pushBreadcrumb (breadcrumb : Json) (h : DirectoryHost) : DirectoryHost :=
  { h with trail := breadcrumb :: h.trail }

def setConsent (given : Bool) (h : DirectoryHost) : DirectoryHost := { h with consent := given }

/-- Adds the members of a scope that an event does not have and that the mode does not exclude. -/
def merge (scope : Members Json) (mode : ScopeMode) : Json → Json
  | .obj event =>
    .obj (scope.foldl (fun ms (k, v) => if mode.excludes k then ms else Members.insertNew k v ms) event)
  | event => event

/-- Writes a file of the client; nobody is told if that fails. -/
def writeQuietly (path : Path) (bytes : Bytes) : SiteM DirectoryHost Unit := do
  let _ ← Run.disk (Disk.writeFile path bytes)

/-- Writes envelopes that are numbered as they come. -/
def dumpFrom (runPath : Path) : Nat → List Bytes → SiteM DirectoryHost Unit
  | _, [] => pure ()
  | i, envelope :: rest => do
    writeQuietly (Path.join runPath ("queued-" ++ toString i ++ ".json")) envelope
    dumpFrom runPath (i + 1) rest

def dumpQueue (runPath : Path) : SiteM DirectoryHost Unit := do
  let queue := (← get).host.queue
  modify fun s => { s with host := { s.host with queue := [] } }
  dumpFrom runPath 0 queue

def capture (event : Json) : SiteM DirectoryHost Unit := do
  let h := (← get).host
  let envelope := (merge h.scope .all event).encode
  if envelope.isEmpty then return
  if h.diskTransport then
    modify fun s => { s with host := { s.host with envelopes := h.envelopes + 1 } }
    writeQuietly (Path.join (Path.join h.directory envelopesDirectory)
      (toString h.envelopes ++ ".json")) envelope
  else modify fun s => { s with host := { s.host with queue := h.queue ++ [envelope] } }

instance : Host DirectoryHost where
  options h := h.options
  writeCrashMarker := do
    let s ← get
    writeQuietly (Path.join s.host.directory lastCrashFile)
      (Bytes.ofString (toString s.env.seconds))
  enforceDiskTransport := do
    let before := (← get).host.diskTransport
    modify fun s => { s with host := { s.host with diskTransport := true } }
    return if before then none else some dumpQueue
  endSession status := do
    let h := (← get).host
    writeQuietly (Path.join h.directory sessionFile)
      (Json.object [("status", .str status.text)]).encode
  captureEvent := capture
  shouldSkipUpload := return !(← get).host.consent
  applyScope event mode := return merge (← get).host.scope mode event

end DirectoryHost

end CrashCapture
