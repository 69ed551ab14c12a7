import CrashCapture.Handler.Program
import CrashCapture.Options

namespace CrashCapture

namespace Handler

/-- The name of the handler program, next to the running one. -/
def defaultName : String := Program.watchdogName

/-- The handler as an absolute path of an existing file. -/
def resolve (options : Options) (executable : Path) (files : FileTree) : Except Error Path := do
  let candidate ← match options.handlerPath, Path.parent? executable with
    | some path, _ => .ok path
    | none, some directory => .ok (Path.join directory defaultName)
    | none, none => .error (.invalidHandlerPath executable)
  match Path.absolute? ("/" ++ "/".intercalate files.workingDirectory) candidate with
  | none => .error (.invalidHandlerPath candidate)
  | some path => if files.isFile path then .ok path else .error (.invalidHandlerPath path)

end Handler

/-- The command line that a handler is launched with. -/
structure HandlerCommand where
  handler : Path
  database : Path
  metricsDirectory : Path
  url : Option String
  annotations : List (String × String)
  attachments : List Path
  monitorPid : Nat
  rateLimit : Bool
deriving DecidableEq, Repr

namespace HandlerCommand

def new (handler database : Path) (pid : Nat) : HandlerCommand where
  handler := handler
  database := database
  metricsDirectory := database
  url := none
  annotations := []
  attachments := []
  monitorPid := pid
  rateLimit := true

def option (name value : String) : List String := ["--" ++ name, value]

def arguments (c : HandlerCommand) : List String :=
  option "database" c.database ++
  option "metrics-dir" c.metricsDirectory ++
  (c.url.map (option "url")).getD [] ++
  option "handler" c.handler ++
  option "monitor-pid" (toString c.monitorPid) ++
  (if c.rateLimit then [] else ["--no-rate-limit"]) ++
  c.annotations.flatMap (fun (k, v) => option "annotation" (k ++ "=" ++ v)) ++
  c.attachments.flatMap (option "attachment")

end HandlerCommand

end CrashCapture
