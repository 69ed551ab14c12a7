import CrashCapture.Fault.Marks

namespace CrashCapture

/-- A lock that does not wait on a thread that is handling a fault: that one tries for a while, and
then uses the data without the lock. -/
structure Lock (α : Type) where
  data : α
  held : Bool

inductive Guard
  | locked
  | forced
deriving DecidableEq, Repr

namespace Lock

variable {α : Type}

def new (data : α) : Lock α := ⟨data, false⟩

def spinLimit : Nat := Nat.pow 2 16

def tryLock (l : Lock α) : Option (Guard × Lock α) :=
  if l.held then none else some (.locked, { l with held := true })

/-- Tries a number of times. -/
def spin : Nat → Lock α → Guard × Lock α
  | 0, l => (.forced, l)
  | n + 1, l =>
    match l.tryLock with
    | some r => r
    | none => spin n l

/-- Taking the lock from within fault handling. -/
def lockInFault (l : Lock α) : Guard × Lock α := spin spinLimit l

inductive Acquisition
  | waiting
  | spinning
deriving DecidableEq, Repr

def acquisition (marks : FaultMarks) (thread : ThreadId) : Acquisition :=
  if marks.mayBlock thread then .waiting else .spinning

/-- Taking the lock; none if the thread has to wait for its release. -/
def lock (marks : FaultMarks) (thread : ThreadId) (l : Lock α) : Option (Guard × Lock α) :=
  match acquisition marks thread with
  | .waiting => l.tryLock
  | .spinning => some l.lockInFault

def release : Guard → Lock α → Lock α
  | .locked, l => { l with held := false }
  | .forced, l => l

/-- The contents are reached through any guard. -/
def update (f : α → α) (l : Lock α) : Lock α := { l with data := f l.data }

end Lock

end CrashCapture
