import CrashCapture.FileTree.Walk
import CrashCapture.Trace.Redaction

namespace CrashCapture.FileTree

def hexText (bs : Bytes) : String :=
  Uuid.ofBytes (bs.flatMap fun b => [Bytes.hexDigit (b.toNat / 16), Bytes.hexDigit (b.toNat % 16)])

def bytesJson (bs : Bytes) : Json :=
  match bs.text? with
  | some s => .str s
  | none => .object [("hex", .str (hexText bs))]

def nodeJson : Node → Json
  | .directory => .object [("dir", .bool true)]
  | .file content _ => bytesJson content.bytes
  | _ => .object [("special", .bool true)]

/-- What is at a path, links followed; null if nothing is. -/
def contentJson (t : FileTree) (p : Path) : Json :=
  match t.find p with
  | .ok (_, node) => nodeJson node
  | .error _ => .null

/-- The content of a file in a listing: JSON is redacted, and so is a time in a crash marker. -/
def redacted (r : Redaction) (name : String) : Json → Json
  | .str s =>
    if name = "last_crash" && !s.isEmpty && s.toList.all Char.isDigit then .str "$TS"
    else .str (r.fileText s)
  | v => v

/-- The entries below a directory by their relative paths, down to a depth, without those in `hidden`.
Directories end in a slash. -/
def listing (r : Redaction) (t : FileTree) (hidden : List String) :
    Nat → Path → String → List (String × Json)
  | 0, _, _ => []
  | depth + 1, base, above =>
    match t.find base with
    | .ok (loc, .directory) => (t.names loc).flatMap fun name =>
        let path := Path.join base name
        let key := above ++ name
        if hidden.contains key then []
        else if t.isDirectory path then
          (key ++ "/", .null) :: listing r t hidden depth path (key ++ "/")
        else [(key, redacted r name (t.contentJson path))]
    | _ => []

def treeJson (r : Redaction) (t : FileTree) (hidden : List String) (base : Path) : Json :=
  .object (listing r t hidden (t.entries.length + 1) base "")

def lines (t : FileTree) (p : Path) : List String :=
  match (t.read p).toOption.bind Bytes.text? with
  | some text => (Text.splitAll '\n' text.toList).dropLast.map .ofList
  | none => []

/-- Replaces the identifier of a report if its file is named after it. -/
def redactedReport (name : String) (v : Json) : Json :=
  if v.stringAt "id" ++ ".json" = name then v.put "id" (.str "$ID") else v

def reportJson (t : FileTree) (directory : Path) : Json :=
  match (t.locate true directory).toOption.bind fun loc => (t.names loc).head? with
  | none => .null
  | some name =>
    match (t.read (Path.join directory name)).toOption.bind fun bs => (Json.parse bs).toOption with
    | some v => redactedReport name v
    | none => .null

end CrashCapture.FileTree
