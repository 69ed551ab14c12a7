import CrashCapture.Handler.Launch
import CrashCapture.Machine

namespace CrashCapture

/-- A handler process that was launched, with its supervisor, which polls it at regular intervals.
-/
structure Supervision where
  command : HandlerCommand
  supervisor : Supervisor
  idle : Nat
deriving DecidableEq, Repr

namespace HandlerCommand

variable {σ : Type}

def spawn (c : HandlerCommand) : MachineM σ (Except IoError Nat) := do
  Run.spawn (← MachineM.forgetsChildren) c.handler c.arguments

/-- Launches the handler, and the thread that supervises it. Without that thread the handler is left
on its own. -/
def launch (c : HandlerCommand) : MachineM σ (Except Error Supervision) := do
  match ← c.spawn with
  | .error e => return .error (.handlerLaunch e)
  | .ok pid =>
    Run.debug ("started handler '" ++ c.handler ++ "' with pid " ++ toString pid)
    if ← Run.canStartThread then return .ok ⟨c, .initial pid, 0⟩
    return .error (.io .tryAgain)

end HandlerCommand

namespace Supervision

variable {σ : Type}

def pollInterval : Nat := 100

def observe (s : Supervision) : MachineM σ (Option Supervisor.Event) := do
  match s.supervisor.phase with
  | .asking => return some (.asked false)
  | .polling => return some (.polled (← Run.poll s.supervisor.child))
  | .launching => return some (.launched (← s.command.spawn).toOption)
  | .publishing => return some .published
  | .stopped => return none

def advance (s : Supervision) : MachineM σ Supervision := do
  let event ← observe s
  match event.bind s.supervisor.step with
  | some supervisor => return { s with supervisor }
  | none => return s

/-- One turn: the handler is polled, and launched again if it has to be. -/
def turn (s : Supervision) : MachineM σ Supervision := do
  let s ← advance (← advance s)
  if s.supervisor.phase = .launching then advance (← advance s) else return s

def turns : Nat → Supervision → MachineM σ Supervision
  | 0, s => return s
  | n + 1, s => do turns n (← turn s)

def pass (milliseconds : Nat) (s : Supervision) : MachineM σ Supervision :=
  let idle := s.idle + milliseconds
  turns (idle / pollInterval) { s with idle := idle % pollInterval }

end Supervision

end CrashCapture
