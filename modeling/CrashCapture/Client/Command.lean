import CrashCapture.Backend
import CrashCapture.CommandLine.Help
import CrashCapture.Signal.Delivery

namespace CrashCapture

/-- What the trial client is told on its command line. -/
structure ClientCommand where
  backend : BackendKind
  fault : Fault
  directory : Path
  handler : Option Path
  breadcrumbs : Nat
  maxBreadcrumbs : Nat
  dsn : Option Dsn
  noConsent : Bool
  noCrash : Bool
deriving DecidableEq, Repr

namespace ClientCommand

def backend? : String → Option BackendKind
  | "inproc" => some .inProcess
  | "external" => some .external
  | _ => none

def parseCount (s : String) : Option Nat := Text.parseUnsigned (Word.limit - 1) s.toList

open CommandLine

def program : String := "crash-client"

def specs : List Spec := [
  { name := "backend", arity := .single, accepts := fun s => (backend? s).isSome
    isRequired := true, about := "The backend to start", choices := ["inproc", "external"] },
  { name := "fault", arity := .single, accepts := fun s => (Fault.ofKeyword? s).isSome
    about := "The fault to raise once the backend is started"
    default := some Fault.segv.keyword, choices := Fault.all.map (·.keyword) },
  { name := "dir", arity := .single, accepts := isPath, isRequired := true
    about := "The directory all of the host's state is kept in" },
  { name := "handler", arity := .single, accepts := isPath
    about := "Path to the handler executable for the external backend" },
  { name := "breadcrumbs", arity := .single, accepts := fun s => (parseCount s).isSome
    about := "The number of breadcrumbs to add before the fault", default := some "0" },
  { name := "max-breadcrumbs", arity := .single, accepts := fun s => (parseCount s).isSome
    about := "The size of a breadcrumb rotation block"
    default := some (toString Options.defaultMaxBreadcrumbs) },
  { name := "dsn", arity := .single, accepts := fun s => (Dsn.parse s).isOk
    about := "The project credentials, used to derive the submission url" },
  { name := "no-consent", arity := .flag, accepts := anyText
    about := "Revokes the upload consent before starting the backend" },
  { name := "no-crash", arity := .flag, accepts := anyText
    about := "Shuts the backend down and exits normally instead of faulting" }]

def ofGiven (g : Given) : Except Refusal ClientCommand := do
  let backend ← required "backend" g
  let directory ← required "dir" g
  return {
    backend := (backend? backend).getD .default
    fault := ((g.value? "fault").bind Fault.ofKeyword?).getD .segv
    directory := directory
    handler := g.value? "handler"
    breadcrumbs := ((g.value? "breadcrumbs").bind parseCount).getD 0
    maxBreadcrumbs :=
      ((g.value? "max-breadcrumbs").bind parseCount).getD Options.defaultMaxBreadcrumbs
    dsn := (g.value? "dsn").bind fun s => (Dsn.parse s).toOption
    noConsent := g.has "no-consent"
    noCrash := g.has "no-crash" }

def parse (arguments : List String) : Except Refusal ClientCommand := do
  ofGiven (← read specs [] arguments)

def options (c : ClientCommand) : Options :=
  { Options.withRoot c.directory with
    maxBreadcrumbs := c.maxBreadcrumbs
    handlerPath := c.handler
    dsn := c.dsn }

end ClientCommand

end CrashCapture
