import CrashCapture.Host.Recording
import CrashCapture.InProcess
import CrashCapture.Proofs.Outcome
import CrashCapture.Signal.Delivery

namespace CrashCapture

variable {σ α β : Type}

def Arguments.bare : Arguments → Arguments
  | .number => .number
  | .details _ _ => .details none false

/-- A call, apart from what it tells of the details of a fault. -/
def Call.bare : Call → Call
  | .signalHandler name signal arguments inHandler now =>
    .signalHandler name signal arguments.bare inHandler now
  | call => call

/-- The environment apart from the stack. -/
def Environment.bare (env : Environment) : Environment :=
  { env with stack := [], calls := env.calls.map Call.bare }

def Environment.record (call : Call) (env : Environment) : Environment :=
  { env with calls := env.calls ++ [call] }

theorem Environment.bare_record (call : Call) (env : Environment) :
    (env.record call).bare = env.bare.record call.bare := by
  unfold record bare
  rw [List.map_append]
  rfl

/-- One client is called on the stack of a signal handler, the other one on the stack that the
signal would interrupt. How far the clients themselves are the same is up to them. -/
structure Site.Alike (R : σ → σ → Prop) (interrupted : Environment) (s₁ s₂ : Site σ) : Prop where
  host : R s₁.host s₂.host
  env : s₁.env.bare = s₂.env.bare
  above : s₁.env.stack = Kernel.handlerFrames ++ interrupted.stack
  below : s₂.env.stack = interrupted.stack
  thread : s₂.env.thread = interrupted.thread

theorem Site.Alike.above_thread {R : σ → σ → Prop} {interrupted : Environment} {s₁ s₂ : Site σ}
    (h : s₁.Alike R interrupted s₂) : s₁.env.thread = interrupted.thread :=
  (congrArg Environment.thread h.env).trans h.thread

/-- Code that gives like answers in both cases. -/
def Likewise (R : σ → σ → Prop) (interrupted : Environment) (S : α → β → Prop) (x : SiteM σ α)
    (y : SiteM σ β) : Prop :=
  ∀ s₁ s₂, s₁.Alike R interrupted s₂ →
    S (x.run s₁).1 (y.run s₂).1 ∧ (x.run s₁).2.Alike R interrupted (y.run s₂).2

/-- Code that does not depend on the stack or on the calls that were observed. -/
structure Run.Unstacked (act : Run α) : Prop where
  bare : ∀ env, act.run env.bare = ((act.run env).1, (act.run env).2.bare)
  stack : ∀ env, (act.run env).2.stack = env.stack
  thread : ∀ env, (act.run env).2.thread = env.thread

variable {R : σ → σ → Prop} {interrupted : Environment}

namespace Likewise

variable {α' β' : Type} {S : α → β → Prop} {T : α' → β' → Prop}

theorem pure {a : α} {b : β} (h : S a b) :
    Likewise R interrupted S (Pure.pure a) (Pure.pure b) := fun _ _ halike => ⟨h, halike⟩

theorem bind {x : SiteM σ α} {y : SiteM σ β} {f : α → SiteM σ α'} {g : β → SiteM σ β'}
    (hx : Likewise R interrupted S x y)
    (hf : ∀ a b, S a b → Likewise R interrupted T (f a) (g b)) :
    Likewise R interrupted T (x >>= f) (y >>= g) := by
  intro s₁ s₂ h
  obtain ⟨hanswer, hafter⟩ := hx s₁ s₂ h
  exact hf _ _ hanswer _ _ hafter

/-- What gives equal answers goes on with the same one. -/
theorem bindEq {x y : SiteM σ α} {f : α → SiteM σ α'} {g : α → SiteM σ β'}
    (hx : Likewise R interrupted Eq x y) (hf : ∀ a, Likewise R interrupted T (f a) (g a)) :
    Likewise R interrupted T (x >>= f) (y >>= g) :=
  hx.bind fun a _ heq => heq ▸ hf a

theorem run {act : Run α} (h : act.Unstacked) :
    Likewise R interrupted Eq (liftM act : SiteM σ α) (liftM act) := by
  intro s₁ s₂ halike
  have hsame : ((act.run s₁.env).1, (act.run s₁.env).2.bare) =
      ((act.run s₂.env).1, (act.run s₂.env).2.bare) := by
    rw [← h.bare, ← h.bare, halike.env]
  obtain ⟨hanswer, hbare⟩ := Prod.mk.inj hsame
  exact ⟨hanswer, halike.host, hbare, (h.stack _).trans halike.above,
    (h.stack _).trans halike.below, (h.thread _).trans halike.thread⟩

theorem record (call : Call) :
    Likewise R interrupted Eq (liftM (Run.record call) : SiteM σ Unit)
      (liftM (Run.record call)) := by
  intro s₁ s₂ halike
  refine ⟨rfl, halike.host, ?_, halike.above, halike.below, halike.thread⟩
  change (s₁.env.record call).bare = (s₂.env.record call).bare
  rw [Environment.bare_record, Environment.bare_record, halike.env]

end Likewise

namespace Run

theorem unstacked_newUuid : newUuid.Unstacked := ⟨fun _ => rfl, fun _ => rfl, fun _ => rfl⟩

theorem unstacked_timestamp : timestamp.Unstacked := ⟨fun _ => rfl, fun _ => rfl, fun _ => rfl⟩

theorem unstacked_inHandler : inHandler.Unstacked := ⟨fun _ => rfl, fun _ => rfl, fun _ => rfl⟩

theorem unstacked_mayBlock : mayBlock.Unstacked := ⟨fun _ => rfl, fun _ => rfl, fun _ => rfl⟩

theorem unstacked_enterFault : enterFault.Unstacked := ⟨fun _ => rfl, fun _ => rfl, fun _ => rfl⟩

theorem unstacked_leaveFault : leaveFault.Unstacked := ⟨fun _ => rfl, fun _ => rfl, fun _ => rfl⟩

end Run

/-- Transports that do the same. -/
def TransportsAlike (R : σ → σ → Prop) (interrupted : Environment) :
    Option (Transport σ) → Option (Transport σ) → Prop :=
  Option.Rel fun t₁ t₂ => ∀ path, Likewise R interrupted Eq (t₁ path) (t₂ path)

/-- A client that does the same in the handler of a signal as outside of it, all but to walk the
stack. -/
structure Host.Steady [Host σ] (R : σ → σ → Prop) (interrupted : Environment) : Prop where
  options : ∀ h₁ h₂ : σ, R h₁ h₂ → Host.options h₁ = Host.options h₂
  writeCrashMarker : Likewise R interrupted Eq (Host.writeCrashMarker (σ := σ))
    Host.writeCrashMarker
  enforceDiskTransport : Likewise R interrupted (TransportsAlike R interrupted)
    (Host.enforceDiskTransport (σ := σ)) Host.enforceDiskTransport
  endSession : ∀ status,
    Likewise R interrupted Eq (Host.endSession (σ := σ) status) (Host.endSession status)
  captureEvent : ∀ event,
    Likewise R interrupted Eq (Host.captureEvent (σ := σ) event) (Host.captureEvent event)

structure Noted (σ : Type) where
  inner : σ
  asked : List Call

namespace Noted

def note (call : Call) : SiteM (Noted σ) Unit := modify fun s =>
  { s with host.asked := s.host.asked ++ [call] }

def within (act : SiteM σ α) : SiteM (Noted σ) α := fun s =>
  let (a, inner) := act.run ⟨s.host.inner, s.env⟩
  (a, ⟨⟨inner.host, s.host.asked⟩, inner.env⟩)

def transport (t : Transport σ) : Transport (Noted σ) := fun path => do
  note (.dumpQueue path)
  within (t path)

/-- All calls are noted with their arguments, but for the details of a fault. -/
instance [Host σ] : Host (Noted σ) where
  options h := Host.options h.inner
  writeCrashMarker := do
    note (.writeCrashMarker (← Run.inHandler) (← Run.mayBlock))
    within Host.writeCrashMarker
  enforceDiskTransport := do
    let prior ← within Host.enforceDiskTransport
    note (.enforceDiskTransport prior.isSome)
    return prior.map transport
  endSession status := do
    note (.endSession status)
    within (Host.endSession status)
  captureEvent event := do
    note (.captureEvent event)
    within (Host.captureEvent event)
  shouldSkipUpload := do
    let skip ← within Host.shouldSkipUpload
    note (.shouldSkipUpload skip)
    return skip
  applyScope event mode := do
    note (.applyScope mode)
    within (Host.applyScope event mode)
  encode value := within (Host.encode value)
  unwind context buffer := do
    note (.unwind context.signal buffer.length)
    within (Host.unwind context buffer)

/-- The same was asked of two clients that are the same as far as `R` goes. -/
structure Same (R : σ → σ → Prop) (h₁ h₂ : Noted σ) : Prop where
  inner : R h₁.inner h₂.inner
  asked : h₁.asked = h₂.asked

theorem note_likewise (call : Call) :
    Likewise (Same R) interrupted Eq (note (σ := σ) call) (note call) := fun _ _ h =>
  ⟨rfl, ⟨h.host.inner, congrArg (· ++ [call]) h.host.asked⟩, h.env, h.above, h.below, h.thread⟩

theorem within_likewise {S : α → β → Prop} {x : SiteM σ α} {y : SiteM σ β}
    (h : Likewise R interrupted S x y) : Likewise (Same R) interrupted S (within x) (within y) := by
  intro s₁ s₂ halike
  obtain ⟨hanswer, hafter⟩ := h ⟨s₁.host.inner, s₁.env⟩ ⟨s₂.host.inner, s₂.env⟩
    ⟨halike.host.inner, halike.env, halike.above, halike.below, halike.thread⟩
  exact ⟨hanswer, ⟨hafter.host, halike.host.asked⟩, hafter.env, hafter.above, hafter.below,
    hafter.thread⟩

theorem transports_likewise {t₁ t₂ : Option (Transport σ)}
    (h : TransportsAlike R interrupted t₁ t₂) :
    TransportsAlike (Same R) interrupted (t₁.map transport) (t₂.map transport) := by
  cases h with
  | none => exact .none
  | some h => exact .some fun path => (note_likewise _).bindEq fun _ => within_likewise (h path)

theorem steady [Host σ] (h : Host.Steady R interrupted) :
    Host.Steady (Same R) interrupted where
  options _ _ hsame := h.options _ _ hsame.inner
  writeCrashMarker := (Likewise.run Run.unstacked_inHandler).bindEq fun _ =>
    (Likewise.run Run.unstacked_mayBlock).bindEq fun _ =>
      (note_likewise _).bindEq fun _ => within_likewise h.writeCrashMarker
  enforceDiskTransport := by
    refine (within_likewise h.enforceDiskTransport).bind fun t₁ t₂ ht => ?_
    have hsome : t₁.isSome = t₂.isSome := by cases ht <;> rfl
    rw [hsome]
    exact (note_likewise _).bindEq fun _ => .pure (transports_likewise ht)
  endSession status := (note_likewise _).bindEq fun _ => within_likewise (h.endSession status)
  captureEvent event := (note_likewise _).bindEq fun _ => within_likewise (h.captureEvent event)

theorem walk_likewise [Host σ] {c₁ c₂ : FaultContext} (hsignal : c₁.signal = c₂.signal)
    (h : Likewise R interrupted Eq (InProcess.walk (σ := σ) c₁) (InProcess.walk c₂)) :
    Likewise (Same R) interrupted Eq (InProcess.walk (σ := Noted σ) c₁) (InProcess.walk c₂) := by
  have hwalk (c : FaultContext) : InProcess.walk (σ := Noted σ) c = (do
      note (.unwind c.signal (List.replicate Event.maxFrames (0 : UInt64)).length)
      within (InProcess.walk c)) := rfl
  rw [hwalk, hwalk, hsignal]
  exact (note_likewise _).bindEq fun _ => within_likewise h

end Noted

namespace InProcess

variable [Host σ]

/-- A capture comes to the same in both cases, if the frames that are found are the same. -/
theorem capture_likewise (steady : Host.Steady R interrupted) {c₁ c₂ : FaultContext}
    (hsignal : c₁.signal = c₂.signal)
    (hwalk : Likewise R interrupted Eq (walk (σ := σ) c₁) (walk c₂)) :
    Likewise R interrupted Eq (capture (σ := σ) c₁) (capture c₂) := by
  have hannounce : Likewise R interrupted (TransportsAlike R interrupted)
      (announce (σ := σ)) announce :=
    steady.writeCrashMarker.bindEq fun _ => steady.enforceDiskTransport.bind fun _ _ ht =>
      (steady.endSession _).bindEq fun _ => .pure ht
  unfold capture
  rw [hsignal]
  refine hannounce.bind fun t₁ t₂ ht => hwalk.bindEq fun frames => ?_
  refine (Likewise.run Run.unstacked_newUuid).bindEq fun id => ?_
  refine (Likewise.run Run.unstacked_timestamp).bindEq fun time => ?_
  refine (steady.captureEvent _).bindEq fun _ => ?_
  cases ht with
  | none => exact .pure rfl
  | some h =>
    intro s₁ s₂ halike
    rw [stateM_run_get, stateM_run_get, steady.options _ _ halike.host]
    exact h _ s₁ s₂ halike

end InProcess

namespace RecordingHost

structure Finds (frames : List UInt64) (h₁ h₂ : RecordingHost) : Prop where
  same : h₁ = h₂
  found : h₂.frames = some frames

theorem steady (frames : List UInt64) (interrupted : Environment) :
    Host.Steady (Finds frames) interrupted where
  options _ _ h := congrArg RecordingHost.options h.same
  writeCrashMarker := (Likewise.run Run.unstacked_inHandler).bindEq fun _ =>
    (Likewise.run Run.unstacked_mayBlock).bindEq fun _ => Likewise.record _
  enforceDiskTransport := by
    intro s₁ s₂ halike
    have hrecorded := (Likewise.record (.enforceDiskTransport s₂.host.hasPrior) s₁ s₂ halike).2
    obtain ⟨h, env₁⟩ := s₁
    obtain ⟨_, env₂⟩ := s₂
    obtain ⟨hsame, hfound⟩ := halike.host
    cases hsame
    refine ⟨?_, ⟨rfl, hfound⟩, hrecorded.env, hrecorded.above, hrecorded.below, hrecorded.thread⟩
    change TransportsAlike _ _ (if h.hasPrior then some _ else none)
      (if h.hasPrior then some _ else none)
    split
    · exact .some fun path => Likewise.record _
    · exact .none
  endSession _ := Likewise.record _
  captureEvent _ := Likewise.record _

theorem walk_likewise (frames : List UInt64) (interrupted : Environment) {c₁ c₂ : FaultContext}
    (hsignal : c₁.signal = c₂.signal) : Likewise (Finds frames) interrupted Eq
      (InProcess.walk (σ := RecordingHost) c₁) (InProcess.walk c₂) := by
  intro s₁ s₂ halike
  obtain ⟨signal, info₁, instruction₁⟩ := c₁
  obtain ⟨_, info₂, instruction₂⟩ := c₂
  cases hsignal
  have hrecorded := (Likewise.record (.unwind signal
    (List.replicate Event.maxFrames (0 : UInt64)).length) s₁ s₂ halike).2
  obtain ⟨h, env₁⟩ := s₁
  obtain ⟨_, env₂⟩ := s₂
  obtain ⟨hsame, hfound⟩ := halike.host
  cases hsame
  obtain ⟨options, scope, rule, encodeFails, skipUpload, prior, found, unwindReturns, taken⟩ := h
  cases hfound
  exact ⟨rfl, ⟨rfl, rfl⟩, hrecorded.env, hrecorded.above, hrecorded.below, hrecorded.thread⟩

end RecordingHost

end CrashCapture
