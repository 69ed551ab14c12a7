import CrashCapture.Machine

namespace CrashCapture

/-- What a handler of signals can have the system do: it raises a signal on its thread, or jumps to
the code of a handler. -/
structure Kernel (σ : Type) where
  raise : SignalNumber → Exec σ Unit
  call : Handler → Bool → FaultContext → Exec σ Unit
  fault : SignalNumber → Exec σ Unit
  settle : Exec σ Unit

namespace Chain

variable {σ : Type}

def signalStackSize : Nat := 65536

def isAttached (p : Machine σ) : Bool := p.chain.isSome

/-- Whether a thread has an alternate stack that will do. -/
def hasRoom (t : Thread) : Bool := (t.altstack.map fun m => decide (signalStackSize ≤ m.size)).getD false

/-- Maps a stack with a guard page below it and registers it, unless the thread has one that will do.
A failure leaves nothing behind. -/
def installStack : MachineM σ (Except Error (Option SignalStack)) := do
  let p ← get
  let t := p.thread
  if hasRoom t then return .ok none
  let memory := p.site.env.memory
  match memory.reserve (Memory.pageSize + signalStackSize) with
  | none => return .error .outOfMemory
  | some (mapping, reserved) =>
    if !memory.quota.commits then return .error (.io .outOfMemory)
    if t.onAltstack then return .error (.io .notPermitted)
    let area : Mapping := ⟨mapping.base + Memory.pageSize, signalStackSize⟩
    set ((p.setThread { t with altstack := some area }).modifyEnv ({ · with memory := reserved }))
    return .ok (some ⟨area, t.altstack, mapping⟩)

/-- Puts the old stack back and unmaps the new one, if the running thread still has it. Whether the
old one could be put back is not looked at. -/
def restoreStack (s : SignalStack) (p : Machine σ) : Machine σ :=
  if (p.thread.altstack.map (·.base)) ≠ some s.area.base then p
  else
    (p.onThread (·.register s.old)).modifyEnv fun env =>
      { env with memory := env.memory.unmap s.mapping }

def setAll (codes : List SignalNumber) (d : SignalNumber → Disposition) (p : Machine σ) : Machine σ :=
  codes.foldl (fun p code => p.setDisposition code (d code)) p

def installHandlers (p : Machine σ) : Machine σ := setAll Descriptor.codes (fun _ => .chain) p

def restoreAll (previous : Dispositions) (p : Machine σ) : Machine σ :=
  setAll Descriptor.codes previous p

/-- Puts back what was remembered for the signals that still have the chain's handler. -/
def restoreOwn (previous : Dispositions) (p : Machine σ) : Machine σ :=
  setAll (Descriptor.codes.filter fun code => (p.dispositions code).handler = .chain) previous p

/-- Remembers all dispositions and installs the handler. Only one chain can be attached. -/
def attach (handler : FaultHandler σ) : MachineM σ (Except Error Unit) := do
  if isAttached (← get) then return .error .handlerAlreadyInstalled
  match ← installStack with
  | .error e => return .error e
  | .ok altstack =>
    let p ← get
    set { installHandlers p with chain := some ⟨p.dispositions, altstack, handler⟩ }
    modify fun p => p.modifyEnv fun env => (Run.debug "attached signal handlers" env).2
    return .ok ()

def detach : MachineM σ Unit := do
  let p ← get
  match p.chain with
  | none => return
  | some c =>
    let p := restoreOwn c.previous { p with chain := none }
    let p := match c.altstack with
      | some s => restoreStack s p
      | none => p
    set (p.modifyEnv fun env => (Run.debug "detached signal handlers" env).2)

def ChainState.previousFor? (c : ChainState σ) (signal : SignalNumber) : Option Disposition :=
  if Descriptor.codes.contains signal then some (c.previous signal) else none

/-- Does what a remembered disposition says. The default action is left to the system, and a handler
is called with what it takes. -/
def invokePrevious (k : Kernel σ) (previous : Disposition) (context : FaultContext) : Exec σ Unit :=
  if previous.handler = .default then k.raise context.signal
  else if previous.flags.siginfo then k.call previous.handler true context
  else if previous.handler ≠ .ignore then k.call previous.handler false context
  else pure ()

/-- Restores everything and does what was remembered for the signal, as after a fault. -/
def invokePreviousHandler (k : Kernel σ) (context : FaultContext) : Exec σ Unit := do
  match (← get).chain with
  | none => pure ()
  | some c =>
    modify (restoreAll c.previous)
    match ChainState.previousFor? c context.signal with
    | some previous => invokePrevious k previous context
    | none => pure ()

/-- Runs the attached handler and restores everything, and returns what was remembered. -/
def capture (context : FaultContext) : Exec σ (Option Disposition) := do
  match (← get).chain with
  | none => return none
  | some c =>
    let _ ← (c.handler context)
    modify (restoreAll c.previous)
    return ChainState.previousFor? c context.signal

/-- The handler that is installed for every handled signal. Called without the details, it only
installs itself again, and the signal comes back. -/
def onSignal (k : Kernel σ) (context : FaultContext) : Exec σ Unit := do
  let signal := context.signal
  if ((← get).dispositions signal).lostDetails then
    modify (·.setDisposition signal (.chainRepaired signal))
  else
    Run.enterFault
    let previous ← capture context
    Run.leaveFault
    match previous with
    | some previous => invokePrevious k previous context
    | none =>
      modify (·.setDisposition signal (.plainDefault signal))
      k.raise signal

end Chain

end CrashCapture
