import CrashCapture.Host
import CrashCapture.Signal.Disposition

namespace CrashCapture

/-- What becomes of a fault after it was captured; both come to the same here. -/
inductive ChainAction
  | invokePrevious
  | continueSearch
deriving DecidableEq, Repr

abbrev FaultHandler (σ : Type) := FaultContext → SiteM σ ChainAction

/-- A stack that was mapped for signal handlers, and what was in its place before. -/
structure SignalStack where
  area : Mapping
  old : Option Mapping
  mapping : Mapping
deriving DecidableEq, Repr

structure ChainState (σ : Type) where
  previous : Dispositions
  altstack : Option SignalStack
  handler : FaultHandler σ

structure CoreLimit where
  soft : Nat
  hard : Nat
deriving DecidableEq, Repr

/-- A process: a client in its environment, the signals, and the chain of handlers that may be
attached. -/
structure Machine (σ : Type) where
  site : Site σ
  dispositions : Dispositions
  threads : ThreadId → Thread
  nextThread : ThreadId
  chain : Option (ChainState σ)
  core : CoreLimit

/-- Code that runs in a process and lets it go on. -/
abbrev MachineM (σ : Type) := StateM (Machine σ)

instance {σ : Type} : MonadLift (SiteM σ) (MachineM σ) where
  monadLift act := modifyGet fun p =>
    let (a, site) := act.run p.site
    (a, { p with site })

inductive Ending
  | killed (signal : SignalNumber)
  | exited (code : Int)
deriving DecidableEq, Repr

/-- Code that runs in a process and may end it. -/
abbrev Exec (σ : Type) := EStateM Ending (Machine σ)

instance {σ : Type} : MonadLift (MachineM σ) (Exec σ) where
  monadLift act := modifyGet act.run

namespace Machine

variable {σ : Type}

def running (p : Machine σ) : ThreadId := p.site.env.thread

def thread (p : Machine σ) : Thread := p.threads p.running

def setThread (t : Thread) (p : Machine σ) : Machine σ :=
  { p with threads := fun id => if id = p.running then t else p.threads id }

def onThread (f : Thread → Thread) (p : Machine σ) : Machine σ := p.setThread (f p.thread)

/-- Makes signals be pending nowhere. -/
def discardPending (signals : List SignalNumber) (p : Machine σ) : Machine σ :=
  if signals.isEmpty then p
  else { p with threads := fun id => signals.foldl (fun t signal => t.discard signal) (p.threads id) }

/-- Sets a disposition. What it makes go away is no longer pending. -/
def setDisposition (signal : SignalNumber) (d : Disposition) (p : Machine σ) : Machine σ :=
  let p := { p with dispositions := p.dispositions.set signal d }
  if d.discards signal then p.discardPending [signal] else p

def modifyEnv (f : Environment → Environment) (p : Machine σ) : Machine σ :=
  { p with site := { p.site with env := f p.site.env } }

end Machine

namespace Machine

/-- The dispositions a process starts with: writing to a pipe that nobody reads is to fail, and not to
end it. -/
def startingDispositions : Dispositions :=
  Dispositions.set 13 { Disposition.plainDefault 13 with handler := .ignore } fun _ => .initial

def initial {σ : Type} (host : σ) (env : Environment) (altstack : Option Mapping) (core : CoreLimit) :
    Machine σ where
  site := ⟨host, env⟩
  dispositions := startingDispositions
  threads := fun _ => ⟨altstack, false, [], []⟩
  nextThread := mainThread + 1
  chain := none
  core := core

end Machine

namespace MachineM

variable {σ : Type}

def hostOptions [Host σ] : MachineM σ Options := return Host.options (← get).site.host

/-- Whether processes are forgotten when they end. -/
def forgetsChildren : MachineM σ Bool := return ((← get).dispositions .chld).handler = .ignore

/-- No core dumps are written from now on; the limit can be raised again. -/
def disableCoreDumps : MachineM σ Unit :=
  modify fun p => { p with core := { p.core with soft := 0 } }

end MachineM

namespace Exec

variable {σ : Type}

/-- Runs code on a new thread and waits for it. -/
def onNewThread {α : Type} (act : Exec σ α) : Exec σ α := do
  let p ← get
  let id := p.nextThread
  let thread := Thread.spawned p.thread.blocked
  let started := { p with
    nextThread := id + 1
    threads := fun t => if t = id then thread else p.threads t }
  set (started.modifyEnv fun env => { env with thread := id })
  let a ← act
  modify (·.modifyEnv fun env => { env with thread := p.running })
  return a

end Exec

end CrashCapture
