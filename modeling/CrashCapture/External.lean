import CrashCapture.Chain
import CrashCapture.Database
import CrashCapture.Handler.Supervision
import CrashCapture.RunFiles

namespace CrashCapture

/-- A backend that leaves the capture of a crash to a handler process. Within the process that
crashes, only the files that go with a report are kept up to date, and what the client has queued is
written out. -/
structure External where
  hosted : Bool
  run : Option RunFiles
  db : Option Database
  hooked : Bool
  process : Option Supervision
  attached : Bool
deriving DecidableEq, Repr

inductive HookResult
  | done
  | overflow
deriving DecidableEq, Repr

namespace External

def initial : External := ⟨false, none, none, false, none, false⟩

def handlerPid? (b : External) : Option Nat := b.process.map (·.supervisor.pid)

def breadcrumbs (b : External) : Nat := (b.run.map (·.count)).getD 0

variable {σ : Type} [Host σ]

def logFailure (what : String) : Except Error Unit → Run Unit
  | .ok () => pure ()
  | .error e => Run.debug (what ++ ": " ++ e.message)

def flush : SiteM σ Unit := do
  Host.writeCrashMarker (σ := σ)
  let prior ← Host.enforceDiskTransport (σ := σ)
  Host.endSession (σ := σ) .crashed
  match prior with
  | some dump => dump (Host.options (← get).host).runPath
  | none => pure ()

/-- The handler process captures the fault; here it is only passed on. -/
def faultHandler : FaultHandler σ := fun _ => do
  flush
  return .invokePrevious

def flushScope (b : External) : SiteM σ Unit := do
  match b.hosted, b.run with
  | true, some run => logFailure "failed to flush scope" (← run.flushScope)
  | _, _ => pure ()

def addBreadcrumb (breadcrumb : Json) (b : External) : SiteM σ (External × HookResult) := do
  match b.hosted, b.run with
  | true, some run =>
    let (run, outcome) ← run.add breadcrumb
    let b := { b with run := some run }
    match outcome with
    | .ok () => return (b, .done)
    | .error .overflow => return (b, .overflow)
    | .error (.failed e) =>
      Run.debug ("failed to add breadcrumb: " ++ e.message)
      return (b, .done)
  | _, _ => return (b, .done)

/-- Keeps the consent to uploads in the database, if that is open. -/
def userConsentChanged (b : External) : SiteM σ External := do
  match b.hosted, b.db with
  | true, some db =>
    let skip ← Host.shouldSkipUpload (σ := σ)
    let (db, outcome) ← db.setUploadsEnabled !skip
    logFailure "failed to update upload consent" outcome
    return { b with db := some db }
  | _, _ => return b

def handleException (b : External) : SiteM σ Unit := do
  if b.hooked then
    Run.enterFault
    flush
    Run.leaveFault

/-- Finds the handler and makes the run files, with a first event in them. -/
def prepare (options : Options) : MachineM σ (Except Error (Path × RunFiles)) := do
  let env := (← get).site.env
  match Handler.resolve options env.executable env.files with
  | .error e => return .error e
  | .ok handler =>
    match ← Run.disk (RunFiles.create options.runPath options.maxBreadcrumbs) with
    | .error e => return .error (.io e)
    | .ok run =>
      logFailure "failed to flush the initial scope" (← (run.flushScope : SiteM σ _))
      return .ok (handler, run)

def openDatabase (path : Path) (b : External) : SiteM σ External := do
  match ← Database.openAt path with
  | .ok db => return { b with db := some db }
  | .error e =>
    Run.debug ("failed to initialize the report database: " ++ e.message)
    return b

/-- The handler reads the consent when it is launched, so that is written before. -/
def readyDatabase (path : Path) (b : External) : SiteM σ External := do
  userConsentChanged (← openDatabase path b)

def commandFor (options : Options) (handler : Path) (run : RunFiles) (pid : Nat) : HandlerCommand :=
  { HandlerCommand.new handler options.databasePath pid with
    url := options.dsn.map (·.minidumpUrl)
    rateLimit := false
    attachments := options.attachments ++ run.paths }

def hook (b : External) : MachineM σ External := do
  Run.reservePool
  match ← Chain.attach faultHandler with
  | .ok () => return { b with attached := true, hooked := true }
  | .error e =>
    Run.debug ("failed to install the first chance fault hook: " ++ e.message)
    return { b with hooked := true }

/-- Launches the handler, and captures faults from then on. -/
def launch (options : Options) (handler : Path) (run : RunFiles) (b : External) :
    MachineM σ (External × Except Error Unit) := do
  match ← (commandFor options handler run (← get).site.env.pid).launch with
  | .error e => return (b, .error e)
  | .ok supervision =>
    let b ← hook { b with process := some supervision }
    if !options.systemCrashReporter then MachineM.disableCoreDumps
    return (b, .ok ())

def tryStartup (b : External) : MachineM σ (External × Except Error Unit) := do
  let options ← MachineM.hostOptions
  match ← prepare options with
  | .error e => return (b, .error e)
  | .ok (handler, run) =>
    let b := { b with run := some run, hosted := true }
    launch options handler run (← (readyDatabase options.databasePath b : SiteM σ _))

def startup (b : External) : MachineM σ External := do
  let (b, outcome) ← tryStartup b
  logFailure "failed to start the external crash handler" outcome
  return b

/-- The handler goes on without supervision, and the run files are left to it. -/
def shutdown (b : External) : MachineM σ External := do
  if b.attached then Chain.detach
  return initial

/-- Time passes, in which the handler may end and be launched again. -/
def pass (milliseconds : Nat) (b : External) : MachineM σ External := do
  match b.process with
  | none => return b
  | some s => return { b with process := some (← s.pass milliseconds) }

end External

end CrashCapture
