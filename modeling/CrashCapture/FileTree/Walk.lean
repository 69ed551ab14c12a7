import CrashCapture.FileTree.Access

namespace CrashCapture.FileTree

def maxName : Nat := 255
def maxPath : Nat := 4096
def maxLinks : Nat := 40

/-- The names between all slashes; the empty ones are kept, as what precedes them has to be a
directory. -/
def pieces (p : Path) : List String := (Text.splitAll '/' p.toList).map String.ofList

/-- Goes down by one name after the other. `follow` goes on from a link: it gets the directory with the
link in it, the link's target, and the names that are left. -/
def descend (t : FileTree) (followLast : Bool)
    (follow : Location → Path → List String → Except IoError Location) (here : Location) :
    List String → Except IoError Location
  | [] => .ok here
  | name :: rest =>
    match t.node? here with
    | none => .error .notFound
    | some .directory =>
      if name = "" || name = "." then descend t followLast follow here rest
      else if name = ".." then descend t followLast follow here.dropLast rest
      else if maxName < name.utf8ByteSize then .error .nameTooLong
      else
        match t.node? (here ++ [name]) with
        | some (.link target) =>
          if rest.isEmpty && !followLast then .ok (here ++ [name]) else follow here target rest
        | _ => descend t followLast follow (here ++ [name]) rest
    | some _ => .error .notDirectory

def start (here : Location) (p : Path) : Location := if Path.isAbsolute p then [] else here

/-- Goes down with a budget of links to follow. -/
def walk (t : FileTree) (followLast : Bool) : Nat → Location → List String → Except IoError Location
  | 0, here, names => descend t followLast (fun _ _ _ => .error .tooManyLinks) here names
  | links + 1, here, names =>
    descend t followLast
      (fun dir target rest => walk t followLast links (start dir target) (pieces target ++ rest))
      here names

/-- The location that a path names, whether or not anything is there. All before it exists. -/
def locate (t : FileTree) (followLast : Bool) (p : Path) : Except IoError Location :=
  if p.toList.contains '\x00' then .error .nulInPath
  else if p.isEmpty then .error .notFound
  else if maxPath ≤ p.utf8ByteSize then .error .nameTooLong
  else walk t followLast maxLinks (start t.workingDirectory p) (pieces p)

def find (t : FileTree) (p : Path) : Except IoError (Location × Node) := do
  let loc ← t.locate true p
  match t.node? loc with
  | some node => return (loc, node)
  | none => .error .notFound

/-- The content of the file at the end of a path. Reading a device that is full has no end. -/
def read (t : FileTree) (p : Path) (access : Access := .full) : Except IoError Bytes := do
  match ← t.find p with
  | (_, .file content mode) =>
    if access.mayRead mode then return content.bytes else .error .accessDenied
  | (_, .directory) => .error .isDirectory
  | (_, .device .null) => return []
  | _ => .error .outOfMemory

def isFile (t : FileTree) (p : Path) : Bool :=
  match t.find p with
  | .ok (_, .file ..) => true
  | _ => false

def isDirectory (t : FileTree) (p : Path) : Bool :=
  match t.find p with
  | .ok (_, .directory) => true
  | _ => false

/-- The size that is reported for what a path names: a directory takes a block. -/
def size (t : FileTree) (p : Path) : Except IoError Nat := do
  match ← t.find p with
  | (_, .file content _) => return content.bytes.length
  | (_, .directory) => return 4096
  | _ => return 0

end CrashCapture.FileTree
