import CrashCapture.Json.Parser
import CrashCapture.Json.Printer
import CrashCapture.Uuid

namespace CrashCapture

structure Settings where
  clientId : Uuid
  uploadsEnabled : Bool
  lastUploadAttempt : Option UInt64
deriving DecidableEq, Repr

namespace Settings

def fresh (clientId : Uuid) : Settings := ⟨clientId, false, none⟩

def render (s : Settings) : Bytes :=
  Json.encodePretty 0 (.obj [
    ("client_id", .str s.clientId.hyphenated),
    ("uploads_enabled", .bool s.uploadsEnabled),
    ("last_upload_attempt", (s.lastUploadAttempt.map (Json.ofNat ·.toNat)).getD .null)])

open Json

/-- The error for a value of another type than the one wanted, which is only known to be one after it
was read, unless it is an array or object. -/
def wrongType (text : Bytes) : DecodeError :=
  match text with
  | 91 :: _ => .mismatch
  | 123 :: _ => .mismatch
  | [] => .malformed
  | text =>
    match scalar text with
    | .ok _ => .mismatch
    | .error e => e

/-- Reads a value after blanks, of which there has to be one. -/
def readValue {α : Type} (read : Bytes → Decode (α × Bytes)) (text : Bytes) : Decode (α × Bytes) :=
  match skipBlanks text with
  | [] => .error .truncated
  | text => read text

def readUuid : Bytes → Decode (Uuid × Bytes) := readValue fun text =>
  match text with
  | 34 :: rest => do
    let (s, rest) ← stringTail rest
    match Uuid.parse? s with
    | some u => return (u, rest)
    | none => .error .mismatch
  | text => .error (wrongType text)

def readBool : Bytes → Decode (Bool × Bytes) := readValue fun text =>
  match text with
  | 116 :: rest => do return (true, ← word [114, 117, 101] rest)
  | 102 :: rest => do return (false, ← word [97, 108, 115, 101] rest)
  | text => .error (wrongType text)

def readTime : Bytes → Decode (Option UInt64 × Bytes) := readValue fun text =>
  match text with
  | 110 :: rest => do return (none, ← word [117, 108, 108] rest)
  | b :: rest =>
    if b = 45 || Bytes.isDigit b then do
      let (n, rest) ← number (b :: rest)
      match n with
      | .int (.ofNat n) => return (some n.toUInt64, rest)
      | _ => .error .mismatch
    else .error (wrongType (b :: rest))
  | [] => .error .truncated

structure Draft where
  clientId : Option Uuid := none
  uploadsEnabled : Option Bool := none
  lastUploadAttempt : Option (Option UInt64) := none

namespace Draft

/-- Reads one member. A second one of a known name is refused before its value is looked at, members
of other names are passed over. -/
def member (d : Draft) (key : String) (text : Bytes) : Decode (Draft × Bytes) :=
  if key = "client_id" then
    if d.clientId.isSome then .error .mismatch
    else do
      let (v, rest) ← readUuid (← punctuation 58 text)
      return ({ d with clientId := some v }, rest)
  else if key = "uploads_enabled" then
    if d.uploadsEnabled.isSome then .error .mismatch
    else do
      let (v, rest) ← readBool (← punctuation 58 text)
      return ({ d with uploadsEnabled := some v }, rest)
  else if key = "last_upload_attempt" then
    if d.lastUploadAttempt.isSome then .error .mismatch
    else do
      let (v, rest) ← readTime (← punctuation 58 text)
      return ({ d with lastUploadAttempt := some v }, rest)
  else do
    let rest ← skipValue (← punctuation 58 text)
    return (d, rest)

/-- The first two members are needed. -/
def settings? (d : Draft) : Option Settings := do
  let clientId ← d.clientId
  let uploadsEnabled ← d.uploadsEnabled
  return ⟨clientId, uploadsEnabled, d.lastUploadAttempt.join⟩

end Draft

/-- Reads the rest of an object after its brace. -/
def ofMembers (text : Bytes) : Decode (Settings × Bytes) := do
  let (draft, rest) ← foldMembers Draft.member (text.length + 1) true {} text
  match draft.settings? with
  | some s => return (s, rest)
  | none => .error .mismatch

/-- Goes to the next element of an array, or stops before its end. -/
def nextElement (first : Bool) (text : Bytes) : Decode (Option Bytes) :=
  match skipBlanks text with
  | [] => .error .truncated
  | 93 :: _ => .ok none
  | b :: rest =>
    if first then .ok (some (b :: rest))
    else if b = 44 then
      match skipBlanks rest with
      | [] => .error .truncated
      | 93 :: _ => .error .malformed
      | text => .ok (some text)
    else .error .malformed

/-- Reads an element that has to be there. -/
def element {α : Type} (first : Bool) (read : Bytes → Decode (α × Bytes)) (text : Bytes) :
    Decode (α × Bytes) := do
  match ← nextElement first text with
  | some text => read text
  | none => .error .mismatch

/-- Reads the rest of an array after its bracket: the members in order, the last one optional. -/
def ofElements (text : Bytes) : Decode (Settings × Bytes) := do
  let (clientId, text) ← element true readUuid text
  let (uploadsEnabled, text) ← element false readBool text
  let (time, text) ← match ← nextElement false text with
    | some text => readTime text
    | none => .ok (none, text)
  return (⟨clientId, uploadsEnabled, time⟩, ← punctuation 93 text)

def parse (text : Bytes) : Except DecodeError Settings := do
  let top : Bytes → Decode (Settings × Bytes) := fun text =>
    match text with
    | 91 :: rest => ofElements rest
    | 123 :: rest => ofMembers rest
    | text => .error (wrongType text)
  readValue top text >>= finish

end Settings

end CrashCapture
