import CrashCapture.Chain
import CrashCapture.Event

namespace CrashCapture

/-- A backend that captures a crash from within the process that crashes: the event is built and
handed to the client by the thread that faulted, before the fault is passed on. -/
structure InProcess where
  started : Bool
  attached : Bool
deriving DecidableEq, Repr

namespace InProcess

def initial : InProcess := ⟨false, false⟩

variable {σ : Type} [Host σ]

/-- The stack of a fault as far as it fits, innermost frame first. -/
def walk (context : FaultContext) : SiteM σ (List UInt64) := do
  let (frames, count) ← Host.unwind (σ := σ) context (List.replicate Event.maxFrames 0)
  return frames.take (min count Event.maxFrames)

/-- Tells of the crash, and replaces the transport: what is captured from now on goes to disk. -/
def announce : SiteM σ (Option (Transport σ)) := do
  Host.writeCrashMarker (σ := σ)
  let prior ← Host.enforceDiskTransport (σ := σ)
  Host.endSession (σ := σ) .crashed
  return prior

/-- Captures a crash. It is on disk before what was queued until then. -/
def capture (context : FaultContext) : SiteM σ Unit := do
  let prior ← announce
  let frames ← walk context
  let id ← Run.newUuid
  let time ← Run.timestamp
  Host.captureEvent (σ := σ) (Event.ofSignal id time (Descriptor.find? context.signal) frames)
  match prior with
  | some dump => dump (Host.options (← get).host).runPath
  | none => pure ()

def faultHandler : FaultHandler σ := fun context => do
  capture context
  return .invokePrevious

def captureInFault (context : FaultContext) : SiteM σ Unit := do
  Run.enterFault
  capture context
  Run.leaveFault

def startup (b : InProcess) : MachineM σ InProcess := do
  Run.reservePool
  match ← Chain.attach faultHandler with
  | .ok () => return ⟨true, true⟩
  | .error e =>
    Run.debug ("failed to install in-process crash handler: " ++ e.message)
    return { b with started := true }

def shutdown (b : InProcess) : MachineM σ InProcess := do
  if b.attached then Chain.detach
  return initial

/-- Captures a fault that did not happen, and does not pass it on. -/
def simulateFault (code : SignalNumber) (b : InProcess) : MachineM σ Unit := do
  if b.started then (captureInFault (.synthetic code) : SiteM σ _)

/-- Captures a fault and passes it on as if it had been delivered. -/
def handleException (k : Kernel σ) (context : FaultContext) (b : InProcess) : Exec σ Unit := do
  if b.started then
    (captureInFault context : SiteM σ _)
    Chain.invokePreviousHandler k context

end InProcess

end CrashCapture
