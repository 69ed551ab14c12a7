namespace CrashCapture

abbrev SignalNumber := Int

namespace SignalNumber

def ill : SignalNumber := 4
def trap : SignalNumber := 5
def abrt : SignalNumber := 6
def bus : SignalNumber := 7
def fpe : SignalNumber := 8
def segv : SignalNumber := 11
def chld : SignalNumber := 17

end SignalNumber

/-- A fault that is handled. -/
structure Descriptor where
  code : SignalNumber
  name : String
  description : String
deriving DecidableEq, Repr

namespace Descriptor

/-- The handled signals, in the order in which their dispositions are saved. -/
def all : List Descriptor := [
  ⟨.ill, "SIGILL", "IllegalInstruction"⟩,
  ⟨.trap, "SIGTRAP", "Trap"⟩,
  ⟨.abrt, "SIGABRT", "Abort"⟩,
  ⟨.bus, "SIGBUS", "BusError"⟩,
  ⟨.fpe, "SIGFPE", "FloatingPointException"⟩,
  ⟨.segv, "SIGSEGV", "Segfault"⟩]

def codes : List SignalNumber := all.map code

def find? (code : SignalNumber) : Option Descriptor := all.find? (·.code = code)

end Descriptor

end CrashCapture
