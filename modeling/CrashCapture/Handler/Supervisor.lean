namespace CrashCapture

inductive Poll
  | running
  | ended
  | failed
deriving DecidableEq, Repr

namespace Supervisor

def maxRestarts : Nat := 3

inductive Phase
  | asking
  | polling
  | launching
  | publishing
  | stopped
deriving DecidableEq, Repr

/-- What the supervisor learns: whether it is to stop, how the process is, which process it has
launched instead, if that was possible, and that others can see which one that is. -/
inductive Event
  | asked (stop : Bool)
  | polled (result : Poll)
  | launched (pid : Option Nat)
  | published
deriving DecidableEq, Repr

end Supervisor

/-- A supervisor of a handler process: it polls that and launches it again when it has ended, a few
times at most. A new process is published in a step of its own, so that others may still see the one
before. -/
structure Supervisor where
  phase : Supervisor.Phase
  /-- The process that is polled. -/
  child : Nat
  /-- The process that others see. -/
  pid : Nat
  restarts : Nat
deriving DecidableEq, Repr

namespace Supervisor

def initial (pid : Nat) : Supervisor := ⟨.asking, pid, pid, 0⟩

def afterPoll (s : Supervisor) : Poll → Supervisor
  | .running => { s with phase := .asking }
  | .failed => { s with phase := .stopped }
  | .ended =>
    if maxRestarts ≤ s.restarts then { s with phase := .stopped }
    else { s with phase := .launching, restarts := s.restarts + 1 }

def afterLaunch (s : Supervisor) : Option Nat → Supervisor
  | some pid => { s with phase := .publishing, child := pid }
  | none => { s with phase := .stopped }

/-- One step; none if this is not what the supervisor is waiting for. -/
def step (s : Supervisor) : Event → Option Supervisor
  | .asked stop =>
    if s.phase = .asking then some { s with phase := if stop then .stopped else .polling } else none
  | .polled result => if s.phase = .polling then some (s.afterPoll result) else none
  | .launched pid => if s.phase = .launching then some (s.afterLaunch pid) else none
  | .published =>
    if s.phase = .publishing then some { s with phase := .asking, pid := s.child } else none

def run (s : Supervisor) : List Event → Option Supervisor
  | [] => some s
  | e :: es => (s.step e).bind (·.run es)

end Supervisor

end CrashCapture
