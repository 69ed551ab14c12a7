import CrashCapture.Fault.Lock

namespace CrashCapture

structure Held where
  thread : ThreadId
  name : String
  lock : Nat
  kind : Guard
deriving DecidableEq, Repr

/-- Threads that handle faults and take locks in turns. Each keeps the guards it got by name. -/
structure Contention (α : Type) where
  marks : FaultMarks
  /-- How many fault scopes each thread has open. -/
  scopes : ThreadId → Nat
  locks : List (Lock α)
  guards : List Held

namespace Contention

variable {α : Type}

def initial (data : List α) : Contention α := ⟨.initial, fun _ => 0, data.map .new, []⟩

def enter (thread : ThreadId) (c : Contention α) : Contention α :=
  { c with
    marks := c.marks.enter thread
    scopes := fun t => if t = thread then c.scopes t + 1 else c.scopes t }

def leave? (thread : ThreadId) (c : Contention α) : Option (Contention α) :=
  if c.scopes thread = 0 then none
  else some { c with
    marks := c.marks.leave
    scopes := fun t => if t = thread then c.scopes t - 1 else c.scopes t }

def giveBack (c : Contention α) (g : Held) : Contention α :=
  { c with locks := c.locks.modify g.lock (Lock.release g.kind) }

def held? (thread : ThreadId) (name : String) (c : Contention α) : Option Held :=
  c.guards.find? fun g => g.thread = thread && g.name = name

def release (thread : ThreadId) (name : String) (c : Contention α) : Contention α :=
  let (mine, others) := c.guards.partition fun g => g.thread = thread && g.name = name
  mine.foldl giveBack { c with guards := others }

inductive Way
  | lock
  | tryLock
  | inFault
deriving DecidableEq, Repr

/-- Takes a lock; none if the thread would have to wait, or if the lock is not to be had. -/
def acquire? (way : Way) (thread : ThreadId) (index : Nat) (c : Contention α) :
    Option (Guard × Contention α) := do
  let lock ← c.locks[index]?
  let (guard, lock) ← match way with
    | .lock => lock.lock c.marks thread
    | .tryLock => lock.tryLock
    | .inFault => some lock.lockInFault
  return (guard, { c with locks := c.locks.set index lock })

/-- Keeps a guard under a name in place of an older one, or releases it at once. -/
def keep (thread : ThreadId) (index : Nat) (name : Option String) (guard : Guard)
    (c : Contention α) : Contention α :=
  match name with
  | none => c.giveBack ⟨thread, "", index, guard⟩
  | some name =>
    let c := c.release thread name
    { c with guards := ⟨thread, name, index, guard⟩ :: c.guards }

/-- Changes the data behind a guard, and shows it. -/
def access (g : Held) (f : α → α) (c : Contention α) : Option α × Contention α :=
  let c := { c with locks := c.locks.modify g.lock (Lock.update f) }
  ((c.locks[g.lock]?).map (·.data), c)

end Contention

end CrashCapture
