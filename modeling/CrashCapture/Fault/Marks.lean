namespace CrashCapture

/-- Threads are told apart by a number that is never zero. -/
abbrev ThreadId := Nat

def mainThread : ThreadId := 1

/-- Marks that say a fault is being handled, and on which thread. -/
structure FaultMarks where
  depth : Nat
  handlingThread : ThreadId
deriving DecidableEq, Repr

namespace FaultMarks

def initial : FaultMarks := ⟨0, 0⟩

/-- The steps of entering and leaving, each of which is atomic. -/
inductive Step
  | claim (thread : ThreadId)
  | raise
  | lower
deriving DecidableEq, Repr

def apply (m : FaultMarks) : Step → FaultMarks
  | .claim thread => { m with handlingThread := thread }
  | .raise => { m with depth := m.depth + 1 }
  | .lower => { m with depth := m.depth - 1 }

def enterSteps (thread : ThreadId) : List Step := [.claim thread, .raise]

def leaveSteps : List Step := [.lower]

def enter (thread : ThreadId) (m : FaultMarks) : FaultMarks := (enterSteps thread).foldl apply m

def leave (m : FaultMarks) : FaultMarks := leaveSteps.foldl apply m

def inHandler (m : FaultMarks) : Bool := 0 < m.depth

/-- Whether a thread may wait for a lock: all but the one that is handling a fault. -/
def mayBlock (m : FaultMarks) (thread : ThreadId) : Bool :=
  !m.inHandler || m.handlingThread ≠ thread

end FaultMarks

end CrashCapture
