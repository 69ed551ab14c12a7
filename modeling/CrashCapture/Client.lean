import CrashCapture.Client.Command
import CrashCapture.Emergency.Footprint
import CrashCapture.Host.Directory
import CrashCapture.Watchdog

namespace CrashCapture

/-- How a program ended, what it wrote to its output, and what is left behind. -/
structure Finished where
  ending : Ending
  output : String
  env : Environment

namespace Client

def failureCode : Int := 1
def panicCode : Int := 101

def withHost (f : DirectoryHost → DirectoryHost) : SiteM DirectoryHost Unit :=
  modify fun s => { s with host := f s.host }

def kindText : BackendKind → String
  | .inProcess => "inproc"
  | .external => "external"
  | .disabled => "disabled"

def breadcrumb (n : Nat) : Json :=
  .object [("message", .str ("breadcrumb " ++ toString n)), ("n", .ofNat n)]

/-- Adds numbered breadcrumbs to the client and its backend. A number that does not fit in a word ends
the process. -/
def addBreadcrumbs : Nat → Nat → Backend → Exec DirectoryHost Backend
  | 0, _, b => return b
  | count + 1, n, b => do
    withHost (·.pushBreadcrumb (breadcrumb n))
    match ← (b.addBreadcrumb (breadcrumb n) : MachineM DirectoryHost _) with
    | (b, .done) => addBreadcrumbs count (n + 1) b
    | (_, .overflow) => throw (.exited panicCode)

def startedEvent : Json := .object [("level", .str "info"), ("message", .str "started")]

/-- Whether the pool has room for all that is done about a crash from within: its event is built from
parts that are copied, then the scope is copied into it, and then it is written. -/
def hasRoom (signal : SignalNumber) : SiteM DirectoryHost Bool := do
  let s ← get
  let event := Event.ofSignal (.ofRandom 0) (← Run.timestamp) (Descriptor.find? signal) s.env.stack
  let pool := do
    let pool ← event.copyInto s.env.emergency.pool
    let pool ← event.copyInto pool
    let pool ← (Json.obj s.host.scope).copyInto pool
    pool.takeBuffer (DirectoryHost.merge s.host.scope .all event).encode.length
  return pool.isSome

/-- Without memory for its event a crash is only told of. Giving up is another fault, which is handled
in the same way, until there is no room left on the stack. -/
def collapse : Exec DirectoryHost Unit := do
  Run.enterFault
  let _ ← (InProcess.announce : SiteM DirectoryHost _)
  throw (.killed .segv)

def act (c : ClientCommand) : Exec DirectoryHost Unit := do
  withHost (·.setConsent !c.noConsent)
  withHost (·.setTag "backend" (kindText c.backend))
  let backend ← ((Backend.new c.backend).startup : MachineM DirectoryHost _)
  (Host.captureEvent startedEvent : SiteM DirectoryHost Unit)
  let backend ← addBreadcrumbs c.breadcrumbs 0 backend
  withHost (·.setTag "fault" c.fault.name)
  (backend.flushScope : MachineM DirectoryHost Unit)
  if c.noCrash then
    let _ ← (backend.shutdown : MachineM DirectoryHost _)
  else
    if c.backend = .inProcess then
      if !(← (hasRoom c.fault.signal : SiteM DirectoryHost _)) then collapse
    c.fault.raise Kernel.system
    throw (.exited failureCode)

def coreLimit : CoreLimit := ⟨1, Nat.pow 2 63⟩

/-- Runs the client in a process of its own, and then whatever watches that process. -/
def run (arguments : List String) (altstack : Option Mapping) (env : Environment) : Finished :=
  match ClientCommand.parse arguments with
  | .error refusal =>
    ⟨.exited refusal.exitCode, refusal.output ClientCommand.program ClientCommand.specs, env⟩
  | .ok c =>
    match (DirectoryHost.new c.directory c.options).run env with
    | (.error _, env) => ⟨.exited failureCode, "", env⟩
    | (.ok host, env) =>
      let (ending, p) : Ending × Machine DirectoryHost := match (act c).run (.initial host env altstack coreLimit) with
        | .ok () p => (.exited 0, p)
        | .error ending p => (ending, p)
      let env := p.site.env
      ⟨ending, "pid: " ++ toString env.pid ++ "\n", ((Run.endWatches env.children).run env).2⟩

end Client

end CrashCapture
