import CrashCapture.Json.Access
import CrashCapture.Json.Parser
import CrashCapture.Json.Printer
import CrashCapture.Text.Split
import CrashCapture.Uuid

namespace CrashCapture

/-- What is known about a run when its values are redacted. -/
structure Redaction where
  pid : Nat
  walked : Bool
  /-- Stands for the reason why a text is no JSON, for which there are no words that can be compared. -/
  reason : String

namespace Redaction

def isLowerHex (c : Char) : Bool := c.isDigit || ('a' ≤ c && c ≤ 'f')

def isHex (c : Char) : Bool := isLowerHex c || ('A' ≤ c && c ≤ 'F')

def isEventId (s : String) : Bool :=
  let cs := s.toList
  cs.length = 32 && cs.all isLowerHex && cs[12]? = some '4' &&
    ['8', '9', 'a', 'b'].any fun c => cs[16]? = some c

/-- The time of an event is later than this. -/
def isTime (bits : UInt64) : Bool := 1.6e9 < Float.ofBits bits

def isFrame : Json → Bool
  | .obj [("instruction_addr", .str s)] =>
    match s.toList with
    | '0' :: 'x' :: ds => !ds.isEmpty && ds.all isLowerHex
    | _ => false
  | _ => false

def isStack : List Json → Bool
  | [] => false
  | fs => fs.length ≤ 128 && fs.all isFrame

def within (key : String) (f : Json → Json) : Json → Json
  | .obj ms => .obj (ms.map fun (k, v) => (k, if k = key then f v else v))
  | v => v

def inFirst (f : Json → Json) : Json → Json
  | .arr (v :: vs) => .arr (f v :: vs)
  | v => v

def eventId : Json → Json
  | .str s => .str (if isEventId s then "$ID" else s)
  | v => v

def time : Json → Json
  | .num (.float bits) => if isTime bits then .str "$TS" else .num (.float bits)
  | v => v

/-- The identifier of a user stands for the process, unless it is somebody else's. -/
def userId (r : Redaction) : Json → Json
  | .str s => .str (if s = toString r.pid then "$PID" else s)
  | v => v

def frames (r : Redaction) : Json → Json
  | .arr fs => if r.walked && isStack fs then .str "$FRAMES" else .arr fs
  | v => v

/-- Redacts an event. What it carries from elsewhere, such as its breadcrumbs, stays as it is. -/
def event (r : Redaction) (v : Json) : Json :=
  let v := within "event_id" eventId v
  let v := within "timestamp" time v
  let v := within "user" (within "id" r.userId) v
  within "exception" (within "values" (inFirst (within "stacktrace" (within "frames" r.frames)))) v

/-- The text of a file, which is redacted if it is a sequence of events without blanks. -/
def fileText (r : Redaction) (text : String) : String :=
  let bytes := Bytes.ofString text
  match Json.parseAll bytes with
  | .ok vs =>
    if vs.flatMap Json.encode = bytes then
      (Bytes.text? ((vs.map r.event).flatMap Json.encode)).getD text
    else text
  | .error _ => text

def looksLikeUuid (cs : List Char) : Bool :=
  let cs := cs.take 36
  cs.length = 36 && cs.zipIdx.all fun (c, i) =>
    if [8, 13, 18, 23].contains i then c = '-' else isHex c

/-- A text that is known, and the identifiers that were met and are not in it. -/
structure Seen where
  known : List Char
  met : List (List Char)

def isIn (text word : List Char) : Bool := (Text.splitOnce word text).isSome

/-- The name of an identifier, by the order in which they are met. -/
def nameOf (id : List Char) : StateM Seen (List Char) := do
  let s ← get
  if isIn s.known id || isIn s.known (id.filter (· ≠ '-')) then return id
  match s.met.idxOf? id with
  | some i => return ("$UUID" ++ toString (i + 1)).toList
  | none =>
    set { s with met := s.met ++ [id] }
    return ("$UUID" ++ toString (s.met.length + 1)).toList

/-- Names the identifiers in a text. The first number says how many characters are passed over. -/
def nameInText : Nat → List Char → StateM Seen (List Char)
  | _, [] => return []
  | skip + 1, _ :: cs => nameInText skip cs
  | 0, c :: cs => do
    if looksLikeUuid (c :: cs) then
      let name ← nameOf ((c :: cs).take 36)
      return name ++ (← nameInText 35 cs)
    else return c :: (← nameInText 0 cs)

mutual

def nameIn : Json → StateM Seen Json
  | .str s => do
    if s.length < 36 then return .str s else return .str (.ofList (← nameInText 0 s.toList))
  | .arr vs => return .arr (← nameInElements vs)
  | .obj ms => return .obj (← nameInMembers ms)
  | v => return v

def nameInElements : List Json → StateM Seen (List Json)
  | [] => return []
  | v :: vs => return (← nameIn v) :: (← nameInElements vs)

def nameInMembers : List (String × Json) → StateM Seen (List (String × Json))
  | [] => return []
  | (k, v) :: ms => return (k, ← nameIn v) :: (← nameInMembers ms)

end

/-- Names all identifiers that are not in a known text, whatever its case. -/
def identifiers (known : String) (v : Json) : Json :=
  ((nameIn v).run ⟨known.toList.map Char.toLower, []⟩).1

end Redaction

end CrashCapture
