import CrashCapture.Proofs.InProcess.Exception

namespace CrashCapture

variable {σ : Type}

namespace Kernel

theorem altstack_foldl_block (signals : List SignalNumber) (t : Thread) :
    (signals.foldl (fun t s => t.block s) t).altstack = t.altstack := by
  induction signals generalizing t with
  | nil => rfl
  | cons signal signals ih =>
    refine (ih (t.block signal)).trans ?_
    unfold Thread.block
    split <;> rfl

/-- Leaving a handler undoes all that entering it has done. -/
theorem leave_enter (signal : SignalNumber) (d : Disposition) (p : Machine σ) :
    leave p (enter signal d p.site.env.stack p) = p := by
  let entered := enter signal d p.site.env.stack p
  have hpending : entered.thread.pending = p.thread.pending := pending_enter signal d _ p
  have haltstack : entered.thread.altstack = p.thread.altstack := by
    rw [thread_enter]
    exact altstack_foldl_block _ p.thread
  let left : Thread := { entered.thread with
    blocked := p.thread.blocked
    altstack := if p.thread.onAltstack then entered.thread.altstack else p.thread.altstack
    onAltstack := p.thread.onAltstack }
  have hleft : left = p.thread := by
    change Thread.mk (if _ then _ else _) _ _ entered.thread.pending = _
    rw [hpending, haltstack, ite_self]
  change (p.setThread _).setThread left = p
  rw [hleft, Machine.setThread_setThread, Machine.setThread_thread]

end Kernel

namespace Chain

open InProcess

/-- A handled signal has the chain's handler without the flag for details. -/
structure Lost (signal : SignalNumber) (p : Machine σ) : Prop where
  handled : signal ∈ Descriptor.codes
  own : (p.dispositions signal).handler = .chain
  plain : (p.dispositions signal).flags.siginfo = false

/-- What is in place for a signal after the handler has set it again, with nothing else changed: the
handler and the flags from attaching, but only the signal itself in the mask. -/
def repaired (signal : SignalNumber) (p : Machine σ) : Machine σ :=
  { p with dispositions := p.dispositions.set signal { Disposition.chain with mask := [signal] } }

variable {signal : SignalNumber} {p : Machine σ}

theorem Lost.lostDetails (lost : Lost signal p) : (p.dispositions signal).lostDetails = true := by
  simp [Disposition.lostDetails, lost.own, lost.plain]

theorem repaired_self (signal : SignalNumber) (p : Machine σ) :
    (repaired signal p).dispositions signal = { Disposition.chain with mask := [signal] } := if_pos rfl

theorem dispositions_attach {handler : FaultHandler σ} {q : Machine σ} (attaches : Attaches q handler)
    (handled : signal ∈ Descriptor.codes) :
    ((attach handler).run q).2.dispositions signal = .chain := by
  unfold Attaches at attaches
  rcases attach_cases handler q with ⟨e, hrun⟩ | ⟨-, altstack, q', hrun, hview⟩
  · rw [hrun] at attaches
    cases attaches
  · rw [hrun]
    exact (congrFun (congrArg View.dispositions hview) signal).trans (if_pos handled)

theorem onSignal_repaired (k : Kernel σ) (lost : Lost signal p) {context : FaultContext}
    (hsignal : context.signal = signal) : (onSignal k context).run p = .ok () (repaired signal p) := by
  subst hsignal
  exact onSignal_lost k lost.lostDetails

theorem entered_of_kept (kept : (p.dispositions signal).flags.resethand = false) :
    entered signal p = Kernel.enter signal (p.dispositions signal) p.site.env.stack p := by
  unfold entered Kernel.reset
  rw [if_neg (by simp [kept])]

/-- The handler is entered and left around that, and the thread is as it was before. -/
theorem delivered_repaired (lost : Lost signal p)
    (kept : (p.dispositions signal).flags.resethand = false) (unblocked : signal ∉ p.thread.blocked)
    (settled : p.thread.next? = none) (delivery : Delivery) (room : Nat) :
    (delivery.run (.withRoom (room + 2)) signal).run p = .ok () (repaired signal p) := by
  have hentered := entered_of_kept kept
  have hlost : Lost signal (entered signal p) := by
    rw [hentered]
    exact ⟨lost.handled, lost.own, lost.plain⟩
  have hleft : Kernel.leave p (repaired signal (entered signal p)) = repaired signal p := by
    rw [hentered]
    exact congrArg (repaired signal) (Kernel.leave_enter signal (p.dispositions signal) p)
  rw [delivery_run lost.handled lost.own unblocked settled]
  unfold afterCapture
  rw [run_bind_ok (onSignal_repaired _ hlost rfl), run_modify, hleft]
  exact Kernel.settle_idle (room + 1) settled

/-- A handler that is called only once is no longer in place when it is called, so that it can't tell
that the flag was lost. -/
theorem lostDetails_reset (once : (p.dispositions signal).flags.resethand = true) :
    ((entered signal p).dispositions signal).lostDetails = false := by
  rw [dispositions_entered_self, if_pos once]
  rfl

/-- Without a chain the default action is taken. -/
theorem delivered_unattached (unattached : p.chain = none) (handled : signal ∈ Descriptor.codes)
    (own : (p.dispositions signal).handler = .chain)
    (details : ((entered signal p).dispositions signal).lostDetails = false)
    (unblocked : signal ∉ p.thread.blocked) (settled : p.thread.next? = none) (delivery : Delivery)
    (room : Nat) :
    ∃ r, (delivery.run (.withRoom (room + 2)) signal).run p = .error (.killed signal) r := by
  let q := closed (opened (entered signal p))
  have hraised : (onSignal (.withRoom (room + 1)) (contextOf signal p)).run (entered signal p) =
      (raiseDefault (.withRoom (room + 1)) signal).run q :=
    onSignal_unattached _ ((chain_entered signal p).trans unattached) details
  have hdefault : ((q.setDisposition signal (.plainDefault signal)).dispositions signal).handler =
      .default := by
    rw [setDisposition_self]
    rfl
  have hpending : (q.setDisposition signal (.plainDefault signal)).thread.pending ⊆
      p.thread.pending :=
    List.Subset.trans (Machine.eases_setDisposition signal _ q).pending (pending_entered signal p)
  obtain ⟨r, hkilled⟩ := afterCapture_killed room settled unblocked handled hpending hdefault
  rw [delivery_run handled own unblocked settled]
  exact ⟨r, (run_bind_congr hraised _).trans hkilled⟩

/-- A signal that is sent now is kept for later. -/
def Waits (s : SignalNumber) (room : Nat) (q : Machine σ) : Prop :=
  (Kernel.send (.withRoom (room + 2)) s).run q = .ok () (q.onThread (·.queue s))

/-- A signal that is sent now is given to the chain's handler at once. -/
def Interrupts (s : SignalNumber) (room : Nat) (q : Machine σ) : Prop :=
  (Kernel.send (.withRoom (room + 2)) s).run q =
    (afterCapture (room + 1) (onSignal (.withRoom (room + 1)) (contextOf s q)) q).run (entered s q)

/-- Another fault comes while the signal is handled. With the disposition from attaching it has to
wait; after a repair it comes in between. -/
theorem sent_in_handler (settled : p.thread.next? = none) {s : SignalNumber}
    (hs : s ∈ Descriptor.codes) (other : s ≠ signal) (own : (p.dispositions s).handler = .chain)
    (unblocked : s ∉ p.thread.blocked) (room : Nat) :
    Waits s room (entered signal (p.setDisposition signal .chain)) ∧
      Interrupts s room (entered signal (repaired signal p)) := by
  have hcatchable := Kernel.isCatchable_of_mem_codes hs
  constructor
  · let q := entered signal (p.setDisposition signal .chain)
    have hset : (p.setDisposition signal .chain).dispositions signal = .chain :=
      setDisposition_self signal .chain p
    have hblocked : s ∈ q.thread.blocked := blocked_entered (by rw [hset]; exact hs) hcatchable
    exact (Kernel.send_run _ hs q).trans (if_pos hblocked)
  · let q := entered signal (repaired signal p)
    have hself := repaired_self signal p
    have hunblocked : s ∉ q.thread.blocked := by
      rw [mem_blocked_entered hcatchable, hself]
      rintro (hmasked | hbefore)
      · exact other (by simpa [Kernel.handlerMask, Disposition.chain, Disposition.chainFlags,
          SignalFlags.none] using hmasked)
      · exact unblocked hbefore
    have hown : (q.dispositions s).handler = .chain := by
      rw [dispositions_entered other]
      exact (congrArg Disposition.handler (if_neg other)).trans own
    have hsettled : q.thread.next? = none :=
      Kernel.next?_enter ((eases_reset signal _ (repaired signal p)).next? settled)
    exact delivery_run hs hown hunblocked hsettled .sent room

/-- Without the flag for details the handler only sets its disposition again, whatever else is in
place, and nothing but that changes. It is then as from attaching but for the mask, which lacks the
other signals: while the signal is handled the next time they are not held back. If the handler was
to be called only once then it does not see that the flag is lost, and the signal is captured and
passed on as if it had come with the details. -/
theorem lost_details_repaired (lost : Lost signal p) :
    (∀ (k : Kernel σ) (context : FaultContext), context.signal = signal →
      (onSignal k context).run p = .ok () (repaired signal p)) ∧
    (∀ (handler : FaultHandler σ) (q : Machine σ), Attaches q handler →
      let installed := ((attach handler).run q).2.dispositions signal
      (repaired signal p).dispositions signal = { installed with mask := [signal] } ∧
        installed.mask = Descriptor.codes) ∧
    (signal ∉ p.thread.blocked → p.thread.next? = none → ∀ room : Nat,
      (∀ delivery : Delivery,
        let delivered := (delivery.run (.withRoom (room + 2)) signal).run p
        ((p.dispositions signal).flags.resethand = false → delivered = .ok () (repaired signal p)) ∧
        ((p.dispositions signal).flags.resethand = true →
          (∀ c, p.chain = some c → delivered =
            (afterCapture (room + 1)
              (invokePrevious (.withRoom (room + 1)) (c.previous signal) (contextOf signal p)) p).run
              (captured c (contextOf signal p) (entered signal p))) ∧
          (p.chain = none → ∃ r, delivered = .error (.killed signal) r))) ∧
      ∀ s ∈ Descriptor.codes, s ≠ signal → (p.dispositions s).handler = .chain →
        s ∉ p.thread.blocked →
        Waits s room (entered signal (p.setDisposition signal .chain)) ∧
          Interrupts s room (entered signal (repaired signal p))) := by
  refine ⟨fun k context hsignal => onSignal_repaired k lost hsignal, fun handler q attaches => ?_,
    fun unblocked settled room => ⟨fun delivery => ⟨fun kept => ?_, fun once => ⟨fun c hc => ?_,
      fun hc => ?_⟩⟩, fun s hs other own hunblocked => ?_⟩⟩
  · rw [dispositions_attach attaches lost.handled]
    exact ⟨repaired_self signal p, rfl⟩
  · exact delivered_repaired lost kept unblocked settled delivery room
  · exact delivery_run_attached hc lost.handled lost.own (lostDetails_reset once) unblocked settled
      delivery room
  · exact delivered_unattached hc lost.handled lost.own (lostDetails_reset once) unblocked settled
      delivery room
  · exact sent_in_handler settled hs other own hunblocked room

/-- A chain is attached, and somebody has set the disposition of a trap again without the flag. -/
def stripped : Machine Unit :=
  ((Move.attach fun _ => pure .invokePrevious).run
    (Machine.initial () (.fresh ⟨[], []⟩) none ⟨0, 0⟩)).setDisposition .trap
      { Disposition.chain with flags := { Disposition.chainFlags with siginfo := false } }

/-- The trap is not passed on, and then an access to memory that faults comes in between. -/
theorem lost_details_repaired_trap :
    (Delivery.sent.run (.withRoom 2) .trap).run stripped = .ok () (repaired .trap stripped) ∧
      Interrupts .segv 0 (entered .trap (repaired .trap stripped)) := by
  have lost : Lost .trap stripped := ⟨by decide, rfl, rfl⟩
  obtain ⟨-, -, hdelivered⟩ := lost_details_repaired lost
  obtain ⟨htrap, hsegv⟩ := hdelivered (by decide +kernel) rfl 0
  exact ⟨(htrap .sent).1 rfl, (hsegv .segv (by decide) (by decide) rfl (by decide +kernel)).2⟩

end Chain

end CrashCapture
