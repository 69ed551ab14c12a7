import CrashCapture.Json.Basic
import CrashCapture.Signal.Descriptor
import CrashCapture.Uuid

namespace CrashCapture.Event

def maxFrames : Nat := 128
def unknownType : String := "UNKNOWN_SIGNAL"
def unknownValue : String := "UnknownSignal"

/-- An address in lower case hexadecimal without leading zeros. -/
def address (a : UInt64) : String := "0x" ++ Uuid.ofBytes (Bytes.hexDigits a.toNat)

def frame (a : UInt64) : Json := .object [("instruction_addr", .str (address a))]

def signalMeta : Option Descriptor → Json
  | some d => .object [("name", .str d.name), ("number", .ofInt d.code)]
  | none => .object []

def mechanism (d : Option Descriptor) : Json := .object [
  ("type", .str "signalhandler"),
  ("synthetic", .bool true),
  ("handled", .bool false),
  ("meta", .object [("signal", signalMeta d)])]

def exception (d : Option Descriptor) (frames : List UInt64) : Json := .object [
  ("type", .str ((d.map (·.name)).getD unknownType)),
  ("value", .str ((d.map (·.description)).getD unknownValue)),
  ("mechanism", mechanism d),
  ("stacktrace", .object [("frames", .arr (frames.reverse.map frame))])]

/-- The event for a fault. The frames are given innermost first and listed outermost first. -/
def ofSignal (id : Uuid) (timestamp : Float) (d : Option Descriptor) (frames : List UInt64) : Json :=
  .object [
    ("event_id", .str id.simple),
    ("timestamp", .num (.float timestamp.toBits)),
    ("platform", .str "native"),
    ("level", .str "fatal"),
    ("exception", .object [("values", .arr [exception d frames])])]

end CrashCapture.Event
