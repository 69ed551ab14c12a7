import CrashCapture.FileTree.Walk

namespace CrashCapture

/-- Operations that read and change files. Each fails with the error that the system gives. -/
abbrev Disk := EStateM IoError FileTree

namespace Disk

def locate (followLast : Bool) (p : Path) : Disk Location := do
  match (← get).locate followLast p with
  | .ok loc => return loc
  | .error e => throw e

def endsInSlash (p : Path) : Bool := p.toList.getLast? = some '/'

def withoutSlash (p : Path) : Path :=
  let body := Text.dropTrailing '/' p.toList
  if body.isEmpty && !p.isEmpty then "/" else .ofList body

/-- Whether the links at a location lead to a path with a slash at its end, so many links at most. -/
def linksToSlash (t : FileTree) : Nat → Location → Bool
  | 0, _ => false
  | n + 1, loc =>
    match t.node? loc with
    | some (.link target) =>
      let next := t.walk false FileTree.maxLinks (FileTree.start loc.dropLast target)
        (FileTree.pieces target)
      endsInSlash target || (next.toOption.map (linksToSlash t n)).getD false
    | _ => false

/-- Where a file is that is to be opened and may have to be made. -/
def locateFile (p : Path) : Disk Location := do
  if endsInSlash p then
    let _ ← locate true (withoutSlash p)
    throw .isDirectory
  if linksToSlash (← get) FileTree.maxLinks (← locate false p) then throw .isDirectory
  locate true p

/-- Opens a file that may have to be made. `content` is what it then holds, given what it held. -/
def openOrCreate (content : Content → Content) (p : Path) (access : Access := .full) :
    Disk Location := do
  let loc ← locateFile p
  match (← get).node? loc with
  | some (.file old mode) =>
    if access.mayWrite mode then modify (·.put loc (.file (content old) mode))
    else throw .accessDenied
  | some (.device _) => pure ()
  | some _ => throw .isDirectory
  | none =>
    if access.mayMake loc then modify (·.put loc (.file .empty defaultMode))
    else throw .accessDenied
  return loc

/-- Opens a file for writing from its start; what it held is gone. -/
def openTruncated (p : Path) (access : Access := .full) : Disk Location :=
  openOrCreate (fun _ => .empty) p access

/-- Opens a file for adding to its end, making it if it is missing. -/
def openAppending (p : Path) (access : Access := .full) : Disk Location :=
  openOrCreate id p access

/-- Opens a file for adding to its end, which has to exist. -/
def openExisting (p : Path) (access : Access := .full) : Disk Location := do
  match (← get).find p with
  | .ok (_, .directory) => throw .isDirectory
  | .ok (loc, .file _ mode) => if access.mayWrite mode then return loc else throw .accessDenied
  | .ok (loc, _) => return loc
  | .error e => throw e

/-- Adds bytes at the end of an open file. If that stops, what was added until then stays in it. A
device that is full takes nothing. -/
def write (loc : Location) (bytes : Bytes) (access : Access := .full) : Disk Unit := do
  match (← get).node? loc with
  | some (.file old mode) =>
    match access.stops (← get) loc bytes with
    | none => modify (·.put loc (.file (old.append bytes) mode))
    | some (n, e) =>
      modify (·.put loc (.file (old.append (bytes.take n)) mode))
      throw e
  | some (.device .full) => if bytes.isEmpty then pure () else throw .noSpace
  | _ => pure ()

def writeFile (p : Path) (bytes : Bytes) (access : Access := .full) : Disk Unit := do
  write (← openTruncated p access) bytes access

def appendFile (p : Path) (bytes : Bytes) (access : Access := .full) : Disk Unit := do
  write (← openExisting p access) bytes access

def touch (p : Path) (access : Access := .full) : Disk Unit := discard (openAppending p access)

def createDirectory (p : Path) : Disk Unit := do
  let loc ← locate false (withoutSlash p)
  match (← get).node? loc with
  | some _ => throw .alreadyExists
  | none => modify (·.put loc .directory)

def ensureDirectory (p : Path) : Disk Unit := do
  try createDirectory p
  catch e => if (← get).isDirectory p then pure () else throw e

/-- Makes a directory with the missing ones above it, `n` at most. -/
def ensureAbove : Nat → Path → Disk Unit
  | 0, p => ensureDirectory p
  | n + 1, p => do
    try ensureDirectory p
    catch e =>
      match e, Path.parent? p with
      | .os 2, some parent =>
        if parent.isEmpty then throw e
        ensureAbove n parent
        ensureDirectory p
      | _, _ => throw e

def createDirectories (p : Path) : Disk Unit :=
  if p.isEmpty then pure () else ensureAbove (Path.components p).length p

/-- Moves an entry, itself and not what it links to, over anything but a directory; a directory moves
over an empty one. -/
def rename (source target : Path) : Disk Unit := do
  let a ← locate false source
  let b ← locate false target
  let t ← get
  match t.node? a, t.node? b with
  | none, _ => throw .notFound
  | some .directory, some .directory => if !(t.names b).isEmpty then throw .notEmpty
  | some .directory, some _ => throw .notDirectory
  | some _, some .directory => throw .isDirectory
  | some _, _ => pure ()
  if a = b then return
  if a.isPrefixOf b then throw .invalid
  set ((t.remove b).relocate a b)

def removeAll (p : Path) : Disk Unit := do
  let loc ← locate false p
  modify (·.remove loc)

def symlink (target p : Path) : Disk Unit := do
  let loc ← locate false p
  match (← get).node? loc with
  | some _ => throw .alreadyExists
  | none => modify (·.put loc (.link target))

def setMode (p : Path) (mode : Nat) : Disk Unit := do
  match (← get).find p with
  | .ok (loc, .file content _) => modify (·.put loc (.file content mode))
  | .ok _ => pure ()
  | .error e => throw e

end Disk

end CrashCapture
