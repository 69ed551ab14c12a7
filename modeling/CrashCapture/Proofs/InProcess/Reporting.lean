import CrashCapture.Proofs.Event
import CrashCapture.Proofs.Host.Likewise
import CrashCapture.Proofs.Start

namespace CrashCapture

variable {σ α β : Type}

namespace Noted

/-- The events among what was asked of a client. -/
def events (asked : List Call) : List Json :=
  asked.filterMap fun
    | .captureEvent event => some event
    | _ => none

theorem events_append (asked asked' : List Call) :
    events (asked ++ asked') = events asked ++ events asked' := List.filterMap_append

/-- Code that hands no event to the client. -/
def Silent (act : SiteM (Noted σ) α) : Prop :=
  ∀ s, events (act.run s).2.host.asked = events s.host.asked

namespace Silent

theorem pure (a : α) : Silent (Pure.pure a : SiteM (Noted σ) α) := fun _ => rfl

theorem bind {x : SiteM (Noted σ) α} {f : α → SiteM (Noted σ) β} (hx : Silent x)
    (hf : ∀ a, Silent (f a)) : Silent (x >>= f) := fun s =>
  (hf (x.run s).1 (x.run s).2).trans (hx s)

theorem run (act : Run α) : Silent (liftM act : SiteM (Noted σ) α) := fun _ => rfl

theorem within (act : SiteM σ α) : Silent (within act) := fun _ => rfl

theorem note {call : Call} (h : events [call] = []) : Silent (note (σ := σ) call) := fun s => by
  change events (s.host.asked ++ [call]) = _
  rw [events_append, h, List.append_nil]

theorem transport (t : Transport σ) (path : Path) : Silent (transport t path) :=
  (note rfl).bind fun _ => within _

variable [Host σ]

theorem writeCrashMarker : Silent (Host.writeCrashMarker (σ := Noted σ)) :=
  (run _).bind fun _ => (run _).bind fun _ => (note rfl).bind fun _ => within _

theorem enforceDiskTransport : Silent (Host.enforceDiskTransport (σ := Noted σ)) :=
  (within _).bind fun _ => (note rfl).bind fun _ => pure _

theorem endSession (status : SessionStatus) : Silent (Host.endSession (σ := Noted σ) status) :=
  (note rfl).bind fun _ => within _

theorem unwind (context : FaultContext) (buffer : List UInt64) :
    Silent (Host.unwind (σ := Noted σ) context buffer) :=
  (note rfl).bind fun _ => within _

theorem announce : Silent (InProcess.announce (σ := Noted σ)) :=
  writeCrashMarker.bind fun _ => enforceDiskTransport.bind fun _ => (endSession _).bind fun _ =>
    pure _

theorem walk (context : FaultContext) : Silent (InProcess.walk (σ := Noted σ) context) :=
  (unwind _ _).bind fun _ => pure _

end Silent

end Noted

namespace InProcess

variable [Host σ]

/-- What is left to do once the event is built. -/
def hand (prior : Option (Transport σ)) (event : Json) : SiteM σ Unit := do
  Host.captureEvent event
  match prior with
  | some dump => dump (Host.options (← get).host).runPath
  | none => pure ()

theorem capture_run (context : FaultContext) (s : Site σ) :
    ∃ id timestamp s', s'.host = ((walk context).run (announce.run s).2).2.host ∧
      (capture context).run s =
        (hand (announce.run s).1
          (Event.ofSignal id timestamp (Descriptor.find? context.signal)
            ((walk context).run (announce.run s).2).1)).run s' := by
  let walked := ((walk context).run (announce.run s).2).2
  let drawn := Run.newUuid.run walked.env
  exact ⟨drawn.1, (Run.timestamp.run drawn.2).1, { walked with env := drawn.2 }, rfl, rfl⟩

end InProcess

end CrashCapture
