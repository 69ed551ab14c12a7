import CrashCapture.Host

namespace CrashCapture

inductive ScopeRule
  | overwrite
  | overwriteByMode
  | replace
  | ignore
deriving DecidableEq, Repr

inductive PriorRule
  | once
  | always
  | never
deriving DecidableEq, Repr

/-- A client that records what is asked of it, and answers as it is told to. -/
structure RecordingHost where
  options : Options
  scope : Json
  rule : ScopeRule
  encodeFails : Bool
  skipUpload : Bool
  prior : PriorRule
  frames : Option (List UInt64)
  unwindReturns : Option Nat
  transportTaken : Bool

namespace RecordingHost

def initial (options : Options) : RecordingHost where
  options := options
  scope := .obj []
  rule := .overwrite
  encodeFails := false
  skipUpload := false
  prior := .once
  frames := none
  unwindReturns := none
  transportTaken := false

/-- Copies members over those of the same names, if both values are objects. -/
def overwrite (keep : String → Bool) : Json → Json → Json
  | .obj event, .obj scope =>
    .obj (scope.foldl (fun ms (k, v) => if keep k then Members.insert k v ms else ms) event)
  | event, _ => event

def merged (h : RecordingHost) (event : Json) (mode : ScopeMode) : Json :=
  match h.rule with
  | .overwrite => overwrite (fun _ => true) event h.scope
  | .overwriteByMode => overwrite (fun k => !mode.excludes k) event h.scope
  | .replace => h.scope
  | .ignore => event

def hasPrior (h : RecordingHost) : Bool :=
  match h.prior with
  | .once => !h.transportTaken
  | .always => true
  | .never => false

def fill (frames buffer : List UInt64) : List UInt64 × Nat :=
  let written := frames.take buffer.length
  (written ++ buffer.drop written.length, written.length)

instance : Host RecordingHost where
  options h := h.options
  writeCrashMarker := do Run.record (.writeCrashMarker (← Run.inHandler) (← Run.mayBlock))
  enforceDiskTransport := do
    let h := (← get).host
    Run.record (.enforceDiskTransport h.hasPrior)
    modify fun s => { s with host := { h with transportTaken := true } }
    return if h.hasPrior then some fun path => Run.record (.dumpQueue path) else none
  endSession status := Run.record (.endSession status)
  captureEvent event := Run.record (.captureEvent event)
  shouldSkipUpload := do
    let skip := (← get).host.skipUpload
    Run.record (.shouldSkipUpload skip)
    return skip
  applyScope event mode := do
    Run.record (.applyScope mode)
    return (← get).host.merged event mode
  encode value := return if (← get).host.encodeFails then [] else value.encode
  unwind context buffer := do
    Run.record (.unwind context.signal buffer.length)
    let s ← get
    match s.host.frames with
    | none => return Unwind.currentStack s.env.stack context buffer
    | some frames =>
      let (written, count) := fill frames buffer
      return (written, s.host.unwindReturns.getD count)

end RecordingHost

end CrashCapture
