import CrashCapture.Host
import CrashCapture.Word

namespace CrashCapture

/-- The files that are attached to a report after a crash: the scope as an event, and the latest
breadcrumbs in two files. Each of these takes a block of breadcrumbs, then the other one starts
over, so that the two together hold at least the last block. -/
structure RunFiles where
  event : Path
  first : Path
  second : Path
  count : Nat
  max : Nat
deriving DecidableEq, Repr

/-- Why an operation of a backend did not end well: it failed, or a number did not fit in a word. -/
inductive Breach
  | failed (error : Error)
  | overflow
deriving DecidableEq, Repr

namespace RunFiles

def eventName : String := "__sentry-event"
def firstName : String := "__sentry-breadcrumb1"
def secondName : String := "__sentry-breadcrumb2"

/-- A block has room for one breadcrumb at least. -/
def inside (runPath : Path) (max : Nat) : RunFiles where
  event := Path.join runPath eventName
  first := Path.join runPath firstName
  second := Path.join runPath secondName
  count := 0
  max := Max.max max 1

def paths (f : RunFiles) : List Path := [f.event, f.first, f.second]

/-- Makes the files that are missing; the others keep their contents. -/
def create (runPath : Path) (max : Nat) : Disk RunFiles := do
  Disk.createDirectories runPath
  let files := inside runPath max
  files.paths.forM Disk.touch
  return files

/-- Where a breadcrumb goes: into which file, and whether it is the first of its block. -/
structure Target where
  inSecond : Bool
  starts : Bool
deriving DecidableEq, Repr

def targetOf? (count max : Nat) : Option Target := do
  let cycle ← Word.mul? max 2
  return ⟨max ≤ count % cycle, count % max = 0⟩

/-- Counts a breadcrumb, and then finds where it goes. -/
def next (f : RunFiles) : RunFiles × Option Target :=
  match Word.add? f.count 1 with
  | none => (f, none)
  | some n => ({ f with count := n }, targetOf? f.count f.max)

variable {σ : Type} [Host σ]

def withoutRunParts : Json → Json
  | .obj ms => .obj (Members.erase "modules" (Members.erase "breadcrumbs" ms))
  | v => v

def liftIo {α : Type} : Except IoError α → Except Error α
  | .ok a => .ok a
  | .error e => .error (.io e)

/-- Overwrites the event file with the current scope, without breadcrumbs and modules whatever the
client makes of the mode. -/
def flushScope (f : RunFiles) (access : Access := .full) : SiteM σ (Except Error Unit) := do
  let event ← Host.applyScope (σ := σ) (.obj []) .none
  let bytes ← Host.encode (σ := σ) (withoutRunParts event)
  if bytes.isEmpty then
    Run.debug "failed to encode the scope, skipping flush"
    return .ok ()
  return liftIo (← Run.disk (Disk.writeFile f.event bytes access))

/-- Adds a breadcrumb to its file, which is started over for the first of a block. -/
def add (f : RunFiles) (breadcrumb : Json) : SiteM σ (RunFiles × Except Breach Unit) := do
  match f.next with
  | (f, none) => return (f, .error .overflow)
  | (f, some target) =>
    let path := if target.inSecond then f.second else f.first
    let bytes ← Host.encode (σ := σ) breadcrumb
    if bytes.isEmpty then
      Run.debug "failed to encode breadcrumb, skipping"
      return (f, .ok ())
    let op := if target.starts then Disk.writeFile path bytes else Disk.appendFile path bytes
    return (f, (liftIo (← Run.disk op)).mapError .failed)

end RunFiles

end CrashCapture
