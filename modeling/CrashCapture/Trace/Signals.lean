import CrashCapture.Machine
import CrashCapture.Trace.Calls

namespace CrashCapture

namespace SignalFlags

def names (f : SignalFlags) : List String :=
  ([(f.siginfo, "siginfo"), (f.onstack, "onstack"), (f.restart, "restart"), (f.nodefer, "nodefer"),
    (f.resethand, "resethand")].filter (·.1)).map (·.2)

end SignalFlags

/-- The numbers up to 31 in order, each once. -/
def signalsJson (signals : List SignalNumber) : Json :=
  .arr (((List.range 32).filter fun (n : Nat) => signals.contains (n : Int)).map Json.ofNat)

namespace Disposition

def toJson (d : Disposition) : Json := .object [
  ("handler", .str d.handler.name.text), ("flags", .ofStrings d.flags.names),
  ("mask", signalsJson d.mask)]

end Disposition

namespace Machine

variable {σ : Type}

/-- The state of signal handling, seen from the main thread, which had an alternate stack at first. -/
def signalMembers (initial : Option Mapping) (p : Machine σ) : List (String × Json) := [
  ("attached", .bool p.chain.isSome),
  ("handlers", .object (Descriptor.all.map fun d =>
    (d.name, .str (p.dispositions d.code).handler.name.text))),
  ("altstack", .str (if (p.threads mainThread).altstack = initial then "initial" else "chain")),
  ("in_signal_handler", .bool p.site.env.marks.inHandler)]

end Machine

end CrashCapture
