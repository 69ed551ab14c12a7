import CrashCapture.Emergency.Pool
import CrashCapture.Fault.Marks
import CrashCapture.FaultContext
import CrashCapture.FileTree.Operations
import CrashCapture.Handler.Program
import CrashCapture.Handler.Supervisor
import CrashCapture.Host.Call
import CrashCapture.Uuid

namespace CrashCapture

structure LogRecord where
  thread : ThreadId
  text : String
deriving DecidableEq, Repr

/-- What code running in a process can see and change, apart from the signals. -/
structure Environment where
  files : FileTree
  /-- A path stands for one of the system, which need not be text. -/
  isText : Path → Bool := fun _ => true
  memory : Memory
  emergency : Emergency
  marks : FaultMarks
  pid : Nat
  executable : Path
  children : List Child
  nextPid : Nat
  /-- The running thread, and the return addresses on its stack, innermost first. -/
  thread : ThreadId
  stack : List UInt64
  seconds : Nat
  nanoseconds : Nat
  random : Nat → BitVec 128
  drawn : Nat
  log : List LogRecord
  calls : List Call

abbrev Run := StateM Environment

namespace Run

def debug (text : String) : Run Unit :=
  modify fun env => { env with log := env.log ++ [⟨env.thread, text⟩] }

def record (call : Call) : Run Unit := modify fun env => { env with calls := env.calls ++ [call] }

def newUuid : Run Uuid :=
  modifyGet fun env => (.ofRandom (env.random env.drawn), { env with drawn := env.drawn + 1 })

def timestamp : Run Float := do
  let env ← get
  return env.seconds.toFloat + env.nanoseconds.toFloat / 1000000000.0

def disk {α : Type} (op : Disk α) : Run (Except IoError α) := modifyGet fun env =>
  match op.run env.files with
  | .ok a files => (.ok a, { env with files })
  | .error e files => (.error e, { env with files })

/-- Whether a process can be spawned: that needs memory to write to. -/
def canSpawn (q : Quota) : Bool := q.commits

/-- Runs a program in a process of its own, which is forgotten when it ends if that is wanted. -/
def spawn (forget : Bool) (p : Path) (arguments : List String) : Run (Except IoError Nat) := do
  let env ← get
  if !canSpawn env.memory.quota then return .error .outOfMemory
  match Program.start env.files p arguments with
  | .error e => return .error e
  | .ok (activity, files) =>
    let child : Child := ⟨env.nextPid, activity, forget⟩
    set { env with files, nextPid := env.nextPid + 1, children := env.children ++ [child] }
    return .ok env.nextPid

def poll (pid : Nat) : Run Poll := do
  match (← get).children.find? (·.pid = pid) with
  | none => return .failed
  | some child =>
    if !child.hasEnded then return .running
    return if child.forgotten then .failed else .ended

/-- The running process is gone, and those that watch it write their reports. -/
def endWatches : List Child → Run Unit
  | [] => pure ()
  | child :: rest => do
    match child.activity with
    | .watching watch =>
      let env ← get
      if watch.isReportable env.isText env.files then
        let id ← newUuid
        let _ ← disk (watch.finish id)
    | _ => pure ()
    endWatches rest

def threadStackSize : Nat := 2 * 1024 * 1024

def canStartThread : Run Bool := do
  let q := (← get).memory.quota
  return q.commits && q.reserves threadStackSize

def inHandler : Run Bool := return (← get).marks.inHandler

def mayBlock : Run Bool := do
  let env ← get
  return env.marks.mayBlock env.thread

def reservePool : Run Unit := modify fun env =>
  let (emergency, memory) := env.emergency.reserve env.memory
  { env with emergency, memory }

/-- From here on all allocations come from the pool. -/
def enableEmergency : Run Unit := modify fun env =>
  let (emergency, memory) := env.emergency.enable env.memory
  { env with emergency, memory }

def enterFault : Run Unit := do
  enableEmergency
  modify fun env => { env with marks := env.marks.enter env.thread }

/-- The emergency allocator stays enabled. -/
def leaveFault : Run Unit := modify fun env => { env with marks := env.marks.leave }

end Run

end CrashCapture
