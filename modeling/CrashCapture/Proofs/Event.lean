import CrashCapture.Event
import CrashCapture.Json.Access
import CrashCapture.Proofs.Json.Members

namespace CrashCapture.Event

section

variable (id : Uuid) (timestamp : Float) (d : Option Descriptor) (frames : List UInt64)

end

end CrashCapture.Event
