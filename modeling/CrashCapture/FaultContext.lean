import CrashCapture.Signal.Descriptor

namespace CrashCapture

structure SignalInfo where
  signal : SignalNumber
  code : Int
deriving DecidableEq, Repr

/-- What is known about a fault: the signal, the details that came with it, and where the thread
was. -/
structure FaultContext where
  signal : SignalNumber
  info : Option SignalInfo
  /-- The instruction at which the thread was interrupted, if its registers were saved. -/
  instructionPointer : Option UInt64
deriving DecidableEq, Repr

namespace FaultContext

def synthetic (signal : SignalNumber) : FaultContext := ⟨signal, some ⟨signal, 0⟩, none⟩

def hasUserContext (c : FaultContext) : Bool := c.instructionPointer.isSome

end FaultContext

end CrashCapture
