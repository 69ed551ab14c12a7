import CrashCapture.Host.Call
import CrashCapture.Memory

namespace CrashCapture

structure SignalFlags where
  siginfo : Bool
  onstack : Bool
  restart : Bool
  nodefer : Bool
  resethand : Bool
deriving DecidableEq, Repr

namespace SignalFlags

def none : SignalFlags := ⟨false, false, false, false, false⟩

end SignalFlags

/-- What a handler of somebody else does besides being called. -/
inductive Effect
  | returns
  | exits
  | attaches
deriving DecidableEq, Repr

structure Routine where
  name : String
  takesDetails : Bool
  effect : Effect
deriving DecidableEq, Repr

inductive Handler
  | default
  | ignore
  | chain
  | other (routine : Routine)
deriving DecidableEq, Repr

def Handler.name : Handler → HandlerName
  | default => .default
  | ignore => .ignore
  | chain => .chain
  | other r => .other r.name

structure Disposition where
  handler : Handler
  flags : SignalFlags
  mask : List SignalNumber
deriving DecidableEq, Repr

namespace Disposition

def initial : Disposition := ⟨.default, .none, []⟩

/-- The default action as it is set with the simplest call. -/
def plainDefault (signal : SignalNumber) : Disposition :=
  ⟨.default, { SignalFlags.none with restart := true }, [signal]⟩

def chainFlags : SignalFlags := { SignalFlags.none with siginfo := true, onstack := true }

/-- All handled signals are masked while one of them is handled. -/
def chain : Disposition := ⟨.chain, chainFlags, Descriptor.codes⟩

/-- What is set after the flag for details was lost: only the signal itself is masked. -/
def chainRepaired (signal : SignalNumber) : Disposition := ⟨.chain, chainFlags, [signal]⟩

def lostDetails (d : Disposition) : Bool := d.handler = .chain && !d.flags.siginfo

end Disposition

abbrev Dispositions := SignalNumber → Disposition

def Dispositions.set (signal : SignalNumber) (d : Disposition) (ds : Dispositions) : Dispositions :=
  fun s => if s = signal then d else ds s

/-- Whether there is a signal of that number that can be sent; two are kept for the system itself. -/
def isSignal (n : SignalNumber) : Bool := 1 ≤ n && n ≤ 64 && n ≠ 32 && n ≠ 33

/-- Whether a disposition can be set for a signal. -/
def isCatchable (n : SignalNumber) : Bool := isSignal n && n ≠ 9 && n ≠ 19

def ignoredByDefault (signal : SignalNumber) : Bool := [17, 18, 23, 28].contains signal

/-- Whether the default action stops the process when that is asked for at its terminal. -/
def isTerminalStop (signal : SignalNumber) : Bool := [20, 21, 22].contains signal

/-- The signals from here on are counted: each one that is sent while blocked is handled later. -/
def firstCounted : SignalNumber := 34

/-- The signals that are no longer pending once another one is sent: one that stops the process and
one that continues it take each other away. -/
def revokes (signal : SignalNumber) : List SignalNumber :=
  if signal = 18 then [19, 20, 21, 22]
  else if signal = 19 || isTerminalStop signal then [18]
  else []

def Disposition.discards (signal : SignalNumber) (d : Disposition) : Bool :=
  d.handler = .ignore || (d.handler = .default && ignoredByDefault signal)

structure Thread where
  altstack : Option Mapping
  onAltstack : Bool
  blocked : List SignalNumber
  pending : List SignalNumber
deriving DecidableEq, Repr

namespace Thread

/-- A new thread inherits what is blocked. -/
def spawned (blocked : List SignalNumber) : Thread := ⟨none, false, blocked, []⟩

/-- Registers an alternate stack, or none. The system refuses that while the thread runs on the one it
has. -/
def register (stack : Option Mapping) (t : Thread) : Thread :=
  if t.onAltstack then t else { t with altstack := stack }

/-- What can't be caught can't be blocked. -/
def block (signal : SignalNumber) (t : Thread) : Thread :=
  if t.blocked.contains signal || !isCatchable signal then t
  else { t with blocked := signal :: t.blocked }

def unblock (signal : SignalNumber) (t : Thread) : Thread :=
  { t with blocked := t.blocked.filter (· ≠ signal) }

/-- Keeps a signal for later. It is pending once only, unless it is counted. -/
def queue (signal : SignalNumber) (t : Thread) : Thread :=
  if t.pending.contains signal && signal < firstCounted then t
  else { t with pending := signal :: t.pending }

def dequeue (signal : SignalNumber) (t : Thread) : Thread :=
  { t with pending := t.pending.erase signal }

def discard (signal : SignalNumber) (t : Thread) : Thread :=
  { t with pending := t.pending.filter (· ≠ signal) }

def faultSignals : List SignalNumber := [.ill, .trap, .bus, .fpe, .segv, 31]

/-- The next pending signal to be handled: one of a fault first, then the lowest number. -/
def next? (t : Thread) : Option SignalNumber :=
  let ready := t.pending.filter fun s => !t.blocked.contains s
  let faults := ready.filter faultSignals.contains
  (if faults.isEmpty then ready else faults).min?

end Thread

end CrashCapture
