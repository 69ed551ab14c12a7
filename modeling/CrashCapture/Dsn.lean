import CrashCapture.Error
import CrashCapture.Text.Split
import CrashCapture.Text.Unsigned

namespace CrashCapture

open Text

inductive Scheme
  | http
  | https
deriving DecidableEq, Repr

namespace Scheme

def text : Scheme → String
  | http => "http"
  | https => "https"

def defaultPort : Scheme → Nat
  | http => 80
  | https => 443

def ofChars? (s : List Char) : Option Scheme :=
  if s = http.text.toList then some http
  else if s = https.text.toList then some https
  else none

end Scheme

/-- Project credentials, written as scheme, public key, host, optional port, path and project:
`https://key@host:443/path/42`. -/
structure Dsn where
  scheme : Scheme
  publicKey : String
  host : String
  explicitPort : Option Nat
  pathPrefix : String
  projectId : String
deriving DecidableEq, Repr

namespace Dsn

def maxPort : Nat := 65535

/-- Host and port, divided by the last colon if there is one. -/
def parseHostPort (s : List Char) : Option (List Char × Option Nat) :=
  match splitLast ':' s with
  | some (host, port) => (parseUnsigned maxPort port).map fun p => (host, some p)
  | none => some (s, none)

/-- Everything before the last segment with its leading slash, and that segment. -/
def parsePath (s : List Char) : List Char × List Char :=
  match splitLast '/' (dropTrailing '/' s) with
  | some (before, project) => ('/' :: before, project)
  | none => ([], dropTrailing '/' s)

/-- The key is what stands before the first colon; a secret after it is dropped. -/
def parseKey (auth : List Char) : List Char := auth.takeWhile (· ≠ ':')

def parse? (s : String) : Option Dsn := do
  let (scheme, rest) ← splitOnce "://".toList s.toList
  let scheme ← Scheme.ofChars? scheme
  let (auth, rest) ← splitFirst '@' rest
  let key := parseKey auth
  if key.isEmpty then none
  let (hostPort, path) ← splitFirst '/' rest
  let (host, port) ← parseHostPort hostPort
  if host.isEmpty then none
  let (before, project) := parsePath path
  if project.isEmpty then none
  return ⟨scheme, .ofList key, .ofList host, port, .ofList before, .ofList project⟩

/-- Parses credentials; an error carries the text that is none. -/
def parse (s : String) : Except Error Dsn :=
  match parse? s with
  | some d => .ok d
  | none => .error (.invalidDsn s)

def port (d : Dsn) : Nat := d.explicitPort.getD d.scheme.defaultPort

def minidumpUrl (d : Dsn) : String :=
  d.scheme.text ++ "://" ++ d.host ++ ":" ++ toString d.port ++ d.pathPrefix ++ "/api/" ++
    d.projectId ++ "/minidump/?sentry_key=" ++ d.publicKey

def render (d : Dsn) : String :=
  d.scheme.text ++ "://" ++ d.publicKey ++ "@" ++ d.host ++
    (match d.explicitPort with
      | some p => ":" ++ toString p
      | none => "") ++ d.pathPrefix ++ "/" ++ d.projectId

end Dsn

end CrashCapture
