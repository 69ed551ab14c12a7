import CrashCapture.Environment
import CrashCapture.Trace.Redaction

namespace CrashCapture

namespace DecodeError

def className : DecodeError → String
  | malformed => "syntax"
  | mismatch => "data"
  | truncated => "eof"

end DecodeError

namespace Error

def kind : Error → String
  | outOfMemory => "OutOfMemory"
  | handlerAlreadyInstalled => "HandlerAlreadyInstalled"
  | invalidHandlerPath _ => "InvalidHandlerPath"
  | handlerLaunch _ => "HandlerLaunch"
  | database _ _ => "Database"
  | serialize _ => "Serialize"
  | invalidDsn _ => "InvalidDsn"
  | io _ => "Io"

def toJson : Error → Json
  | serialize c => .object [("error", .str "Serialize"), ("class", .str c.className)]
  | e => .object ([("error", .str e.kind), ("message", .str e.message)] ++
      (e.source.map fun s => ("source", Json.str s.message)).toList)

end Error

namespace ScopeMode

def members (m : ScopeMode) : List (String × Json) :=
  [("breadcrumbs", .bool m.breadcrumbs), ("modules", .bool m.modules)]

end ScopeMode

namespace HandlerName

def text : HandlerName → String
  | default => "default"
  | ignore => "ignore"
  | chain => "chain"
  | other name => name

end HandlerName

namespace Call

def name : Call → String
  | writeCrashMarker .. => "write_crash_marker"
  | enforceDiskTransport .. => "enforce_disk_transport"
  | endSession .. => "end_session"
  | captureEvent .. => "capture_event"
  | shouldSkipUpload .. => "should_skip_upload"
  | applyScope .. => "apply_scope"
  | unwind .. => "unwind"
  | dumpQueue .. => "dump_queue"
  | faultHandler .. => "on_fault"
  | signalHandler handler .. => "prev_" ++ handler
  | attachment .. => "prev_attach"

def details (r : Redaction) : Call → List (String × Json)
  | writeCrashMarker inHandler mayBlock =>
    [("in_signal_handler", .bool inHandler), ("may_block", .bool mayBlock)]
  | enforceDiskTransport prior => [("prior", .bool prior)]
  | endSession status => [("status", .str status.text)]
  | captureEvent event => [("event", r.event event)]
  | shouldSkipUpload answer => [("returns", .bool answer)]
  | applyScope mode => mode.members
  | unwind code capacity => [("code", .ofInt code), ("capacity", .ofNat capacity)]
  | dumpQueue path => [("run_path", .str path)]
  | faultHandler handler c inHandler mayBlock walked =>
    [("handler", .str handler), ("code", .ofInt c.signal),
      ("info_signo", .ofOption (.ofInt ·.signal) c.info),
      ("ip", .bool c.instructionPointer.isSome), ("in_signal_handler", .bool inHandler),
      ("may_block", .bool mayBlock)] ++
    (walked.map fun (found, atIp) =>
      ("unwound", Json.object [("some", .bool found), ("at_ip", .bool atIp)])).toList
  | signalHandler _ signal arguments inHandler now =>
    [("code", .ofInt signal), ("in_signal_handler", .bool inHandler), ("now", .str now.text)] ++
    match arguments with
    | .number => []
    | .details info userContext =>
      [("info_signo", .ofOption .ofInt info), ("user_context", .bool userContext)]
  | attachment signal failure =>
    [("code", .ofInt signal), ("r", (failure.map Error.toJson).getD (.str "ok"))]

def toJson (r : Redaction) (c : Call) : Json := .object (("call", .str c.name) :: c.details r)

end Call

namespace LogRecord

def unreadable : String := "discarding unreadable database settings: "

def startsWith (start : String) (cs : List Char) : Bool := start.toList.isPrefixOf cs

/-- Hides the number at the end of a text that says which process was started. -/
def withoutPid (cs : List Char) : List Char :=
  let reversed := cs.reverse
  let digits := reversed.takeWhile Char.isDigit
  let before := (reversed.drop digits.length).reverse
  if !digits.isEmpty && (" with pid ".toList).isSuffixOf before then before ++ "$PID".toList else cs

def line (r : Redaction) (l : LogRecord) : String :=
  let cs := l.text.toList
  "debug: " ++
    if startsWith unreadable cs && !startsWith (unreadable ++ "crash report database") cs then
      unreadable ++ r.reason
    else .ofList (withoutPid cs)

end LogRecord

namespace Environment

/-- The calls and the main thread's log records since the trace was last cleared, if there are any. -/
def traceMembers (r : Redaction) (env : Environment) : List (String × Json) :=
  let logs := (env.log.filter (·.thread = mainThread)).map fun l => Json.str (l.line r)
  (if env.calls.isEmpty then [] else [("calls", .arr (env.calls.map (·.toJson r)))]) ++
    (if logs.isEmpty then [] else [("logs", .arr logs)])

def clearTrace (env : Environment) : Environment := { env with calls := [], log := [] }

end Environment

end CrashCapture
