import CrashCapture.FaultContext

namespace CrashCapture.Unwind

/-- The state of a walk: the buffer and how much of it is filled. -/
structure Walk where
  buffer : List UInt64
  count : Nat
  started : Bool

/-- Shows one frame to the walk, which says whether it wants another. -/
def Walk.visit (startAt : Option UInt64) (w : Walk) (ip : UInt64) : Walk × Bool :=
  if !w.started && startAt ≠ some ip then (w, true)
  else if w.buffer.length ≤ w.count then ({ w with started := true }, false)
  else ({ buffer := w.buffer.set w.count ip, count := w.count + 1, started := true }, true)

/-- Shows the frames, innermost first, until the walk has enough. -/
def trace (startAt : Option UInt64) : List UInt64 → Walk → Walk
  | [], w => w
  | ip :: rest, w =>
    match w.visit startAt ip with
    | (w, true) => trace startAt rest w
    | (w, false) => w

/-- Writes frames into the buffer, and returns it with the number of them. -/
def walkStack (stack buffer : List UInt64) (startAt : Option UInt64) : List UInt64 × Nat :=
  let w := trace startAt stack ⟨buffer, 0, startAt.isNone⟩
  (w.buffer, w.count)

/-- The frames of a fault, with any way to walk the stack into a buffer. -/
def currentStackBy {m : Type → Type} [Monad m]
    (walk : List UInt64 → Option UInt64 → m (List UInt64 × Nat)) (context : FaultContext)
    (buffer : List UInt64) : m (List UInt64 × Nat) :=
  match context.instructionPointer with
  | none => walk buffer none
  | some ip => do
    let (written, count) ← walk buffer (some ip)
    if 0 < count then return (written, count) else walk written none

def currentStack (stack : List UInt64) (context : FaultContext) (buffer : List UInt64) :
    List UInt64 × Nat :=
  currentStackBy (m := Id) (walkStack stack) context buffer

end CrashCapture.Unwind
