import CrashCapture.IoError
import CrashCapture.Path

namespace CrashCapture

/-- Why a JSON text was not accepted: it is not JSON, it is JSON of another shape, or it ended early. -/
inductive DecodeError
  | malformed
  | mismatch
  | truncated
deriving DecidableEq, Repr

/-- What can go wrong while a backend is started, runs or is stopped. None of it reaches the client:
it is logged, and the backend stays partly or fully inactive. -/
inductive Error
  | outOfMemory
  | handlerAlreadyInstalled
  | invalidHandlerPath (path : Path)
  | handlerLaunch (source : IoError)
  | database (path : Path) (source : IoError)
  | serialize (cause : DecodeError)
  | invalidDsn (text : String)
  | io (source : IoError)
deriving DecidableEq, Repr

namespace Error

def message : Error → String
  | outOfMemory => "unable to allocate memory"
  | handlerAlreadyInstalled => "a crash handler is already installed"
  | invalidHandlerPath path => "invalid handler path '" ++ path ++ "'"
  | handlerLaunch _ => "failed to launch handler process"
  | database path _ => "crash report database at '" ++ path ++ "' is unusable"
  | serialize .malformed => "malformed JSON"
  | serialize .mismatch => "unexpected JSON"
  | serialize .truncated => "incomplete JSON"
  | invalidDsn text => "invalid DSN '" ++ text ++ "'"
  | io source => source.message

def source : Error → Option IoError
  | handlerLaunch e => some e
  | database _ e => some e
  | _ => none

end Error

end CrashCapture
