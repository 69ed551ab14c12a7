import CrashCapture.External
import CrashCapture.InProcess

namespace CrashCapture

/-- The ways to capture a crash. -/
inductive BackendKind
  | inProcess
  | external
  | disabled
deriving DecidableEq, Repr

namespace BackendKind

/-- What is used unless another one is asked for. -/
def default : BackendKind := inProcess

def hasExceptionHook : BackendKind → Bool
  | disabled => false
  | _ => true

def hasStateHooks : BackendKind → Bool
  | external => true
  | _ => false

end BackendKind

/-- A backend of one of these kinds. -/
inductive Backend
  | inProcess (b : InProcess)
  | external (b : External)
  | disabled
deriving DecidableEq, Repr

namespace Backend

def new : BackendKind → Backend
  | .inProcess => inProcess .initial
  | .external => external .initial
  | .disabled => disabled

variable {σ : Type} [Host σ]

def startup : Backend → MachineM σ Backend
  | inProcess b => return inProcess (← b.startup)
  | external b => return external (← b.startup)
  | disabled => return disabled

def shutdown : Backend → MachineM σ Backend
  | inProcess b => return inProcess (← b.shutdown)
  | external b => return external (← b.shutdown)
  | disabled => return disabled

def addBreadcrumb (breadcrumb : Json) : Backend → MachineM σ (Backend × HookResult)
  | external b => do
    let (b, result) ← (b.addBreadcrumb breadcrumb : SiteM σ _)
    return (external b, result)
  | b => return (b, .done)

def flushScope : Backend → MachineM σ Unit
  | external b => (b.flushScope : SiteM σ _)
  | _ => pure ()

end Backend

end CrashCapture
