import CrashCapture.Chain
import CrashCapture.Event

namespace CrashCapture

namespace FaultHandler

/-- A handler that only records that it ran, and, if asked to, that the stack could be walked. -/
def recording {σ : Type} (name : String) (action : ChainAction) (walks : Bool) : FaultHandler σ :=
  fun context => do
    let env := (← get).env
    let (frames, count) := Unwind.currentStack env.stack context (List.replicate Event.maxFrames 0)
    let walked := (decide (0 < count), decide (frames.head? = context.instructionPointer))
    Run.record (.faultHandler name context (← Run.inHandler) (← Run.mayBlock)
      (if walks then some walked else none))
    return action

end FaultHandler

namespace Routine

variable {σ : Type}

def record (r : Routine) (arguments : Arguments) (signal : SignalNumber) : Exec σ Unit := do
  let now := ((← get).dispositions signal).handler.name
  do Run.record (.signalHandler r.name signal arguments (← Run.inHandler) now)

/-- What a handler of somebody else does when it is called. -/
def run (r : Routine) (detailed : Bool) (context : FaultContext) : Exec σ Unit := do
  let signal := context.signal
  let arguments : Arguments :=
    if !r.takesDetails then .number
    else if detailed then .details (context.info.map (·.signal)) context.hasUserContext
    else .details none false
  match r.effect with
  | .returns => r.record arguments signal
  | .exits =>
    r.record arguments signal
    throw (.exited (100 + signal))
  | .attaches =>
    let outcome ← (Chain.attach (.recording "nested" .invokePrevious false) : MachineM σ _)
    let failure : Option Error := match outcome with
      | .ok () => none
      | .error e => some e
    (Run.record (.attachment signal failure))

end Routine

namespace Kernel

variable {σ : Type}

/-- The return addresses on the stack of a handler, above those of what it interrupted. -/
def handlerFrames : List UInt64 := [0x55d0c0df1111, 0x55d0c0df2222, 0x7f5ea0042520]

def interrupted (env : Environment) : UInt64 := env.stack.head?.getD 0

/-- Runs a handler for a signal: more signals are blocked, the stack is changed if that is asked for,
and in the end the thread is as it was before. A stack that is set from within is lost then. -/
def runHandler (k : Kernel σ) (signal : SignalNumber) (d : Disposition) : Exec σ Unit := do
  let p ← get
  let before := p.thread
  let stack := p.site.env.stack
  if d.flags.resethand then
    modify (·.setDisposition signal { d with handler := .default })
  let masked := if d.flags.nodefer then d.mask else signal :: d.mask
  modify fun p => (p.onThread fun t =>
      { masked.foldl (fun t s => t.block s) t with
        onAltstack := t.onAltstack || (d.flags.onstack && t.altstack.isSome) }).modifyEnv
    ({ · with stack := handlerFrames ++ stack })
  k.settle
  k.call d.handler true ⟨signal, some ⟨signal, 0⟩, some (interrupted p.site.env)⟩
  modify fun p => (p.onThread fun t =>
      { t with
        blocked := before.blocked
        altstack := if before.onAltstack then t.altstack else before.altstack
        onAltstack := before.onAltstack }).modifyEnv ({ · with stack })
  k.settle

/-- What happens about a signal that is not blocked. The process is not stopped from a terminal, as
there is nobody who would continue it. -/
def act (k : Kernel σ) (signal : SignalNumber) : Exec σ Unit := do
  let d := (← get).dispositions signal
  match d.handler with
  | .default =>
    if ignoredByDefault signal || isTerminalStop signal then pure () else throw (.killed signal)
  | .ignore => pure ()
  | _ => runHandler k signal d

def send (k : Kernel σ) (signal : SignalNumber) : Exec σ Unit := do
  if !isSignal signal then return
  modify (·.discardPending (revokes signal))
  if (← get).thread.blocked.contains signal then modify (·.onThread (·.queue signal))
  else act k signal

/-- An instruction that faults. A thread that can't be told is killed. -/
def trapInto (k : Kernel σ) (signal : SignalNumber) : Exec σ Unit := do
  let p ← get
  if p.thread.blocked.contains signal || (p.dispositions signal).handler = .ignore then
    throw (.killed signal)
  else act k signal

def deliverPending (k : Kernel σ) : Exec σ Unit := do
  match (← get).thread.next? with
  | none => pure ()
  | some signal =>
    modify (·.onThread (·.dequeue signal))
    act k signal
    k.settle

/-- Runs the code of a handler. What is no code faults when it is run. -/
def jump (k : Kernel σ) (h : Handler) (detailed : Bool) (context : FaultContext) : Exec σ Unit :=
  match h with
  | .chain => Chain.onSignal k context
  | .other r => r.run detailed context
  | _ => k.fault .segv

/-- An instruction that is run again after its fault was handled, and faults again. -/
def faultAgain (k : Kernel σ) (signal : SignalNumber) : Exec σ Unit := do
  trapInto k signal
  k.fault signal

/-- A system with room for so many nested calls on the stack. Beyond it the thread faults on its own
stack, and can't be told. -/
def withRoom : Nat → Kernel σ
  | 0 =>
    let overflow : Exec σ Unit := throw (.killed .segv)
    ⟨fun _ => overflow, fun _ _ _ => overflow, fun _ => overflow, overflow⟩
  | room + 1 =>
    let k := withRoom room
    ⟨send k, jump k, faultAgain k, deliverPending k⟩

def stackRoom : Nat := 200

def system : Kernel σ := withRoom stackRoom

end Kernel

inductive Fault
  | segv
  | abort
  | ill
  | fpe
  | trap
  | bus
deriving DecidableEq, Repr

namespace Fault

def all : List Fault := [segv, abort, ill, fpe, trap, bus]

def keyword : Fault → String
  | segv => "segv"
  | abort => "abort"
  | ill => "ill"
  | fpe => "fpe"
  | trap => "trap"
  | bus => "bus"

def ofKeyword? (s : String) : Option Fault := all.find? (·.keyword = s)

def name : Fault → String
  | segv => "Segv"
  | abort => "Abort"
  | ill => "Ill"
  | fpe => "Fpe"
  | trap => "Trap"
  | bus => "Bus"

def signal : Fault → SignalNumber
  | segv => .segv
  | abort => .abrt
  | ill => .ill
  | fpe => .fpe
  | trap => .trap
  | bus => .bus

variable {σ : Type}

/-- Raises the fault. Only a trap is passed once it was handled; an abort ends with the default
action whatever the handlers do. -/
def raise (k : Kernel σ) : Fault → Exec σ Unit
  | segv => k.fault .segv
  | ill => k.fault .ill
  | fpe => k.fault .fpe
  | bus => k.fault .bus
  | trap => Kernel.trapInto k .trap
  | abort => do
    modify (·.onThread (·.unblock .abrt))
    k.settle
    k.raise .abrt
    modify (·.setDisposition .abrt .initial)
    k.raise .abrt

end Fault

end CrashCapture
