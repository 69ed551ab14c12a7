import CrashCapture.Error
import CrashCapture.FaultContext
import CrashCapture.Json.Basic

namespace CrashCapture

inductive SessionStatus
  | ok
  | exited
  | crashed
  | abnormal
deriving DecidableEq, Repr

def SessionStatus.text : SessionStatus → String
  | ok => "ok"
  | exited => "exited"
  | crashed => "crashed"
  | abnormal => "abnormal"

def SessionStatus.ofText? (s : String) : Option SessionStatus :=
  [ok, exited, crashed, abnormal].find? (·.text = s)

structure ScopeMode where
  breadcrumbs : Bool
  modules : Bool
deriving DecidableEq, Repr

namespace ScopeMode

def none : ScopeMode := ⟨false, false⟩

def all : ScopeMode := ⟨true, true⟩

def excludes (m : ScopeMode) (key : String) : Bool :=
  (key = "breadcrumbs" && !m.breadcrumbs) || (key = "modules" && !m.modules)

end ScopeMode

/-- What the handler of a signal is, seen from outside. -/
inductive HandlerName
  | default
  | ignore
  | chain
  | other (name : String)
deriving DecidableEq, Repr

/-- The arguments that a handler of a signal was called with. -/
inductive Arguments
  | number
  | details (info : Option SignalNumber) (userContext : Bool)
deriving DecidableEq, Repr

/-- What is asked of a client, and what is observed of the handlers of signals. -/
inductive Call
  | writeCrashMarker (inHandler mayBlock : Bool)
  | enforceDiskTransport (prior : Bool)
  | endSession (status : SessionStatus)
  | captureEvent (event : Json)
  | shouldSkipUpload (answer : Bool)
  | applyScope (mode : ScopeMode)
  | unwind (code : SignalNumber) (capacity : Nat)
  | dumpQueue (path : Path)
  | faultHandler (name : String) (context : FaultContext) (inHandler mayBlock : Bool)
      (walked : Option (Bool × Bool))
  | signalHandler (name : String) (signal : SignalNumber) (arguments : Arguments) (inHandler : Bool)
      (now : HandlerName)
  | attachment (signal : SignalNumber) (failure : Option Error)
deriving Repr

end CrashCapture
