import CrashCapture.Environment
import CrashCapture.Json.Printer
import CrashCapture.Options
import CrashCapture.Unwind

namespace CrashCapture

structure Site (σ : Type) where
  host : σ
  env : Environment

abbrev SiteM (σ : Type) := StateM (Site σ)

instance {σ : Type} : MonadLift Run (SiteM σ) where
  monadLift act := modifyGet fun s =>
    let (a, env) := act.run s.env
    (a, { s with env })

/-- A transport that may still have events queued: it writes them into a directory. -/
abbrev Transport (σ : Type) := Path → SiteM σ Unit

/-- The client that owns a backend: what it can be asked to do, before and during a fault. -/
class Host (σ : Type) where
  options : σ → Options
  /-- Writes the marker that tells the next run of this crash. -/
  writeCrashMarker : SiteM σ Unit
  /-- Replaces the active transport by one that writes to disk, and returns it if there was one. -/
  enforceDiskTransport : SiteM σ (Option (Transport σ))
  endSession (status : SessionStatus) : SiteM σ Unit
  captureEvent (event : Json) : SiteM σ Unit
  shouldSkipUpload : SiteM σ Bool
  applyScope (event : Json) (mode : ScopeMode) : SiteM σ Json
  /-- The written form of a value; nothing if there is none. -/
  encode (value : Json) : SiteM σ Bytes := pure value.encode
  /-- Writes the stack of a fault into a buffer, innermost frame first, and counts the frames. -/
  unwind (context : FaultContext) (buffer : List UInt64) : SiteM σ (List UInt64 × Nat) := do
    return Unwind.currentStack (← get).env.stack context buffer

end CrashCapture
