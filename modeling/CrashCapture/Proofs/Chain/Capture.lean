import CrashCapture.Proofs.Signal.Upholds

namespace CrashCapture.Chain

variable {σ : Type}

/-- In the scope of a fault. -/
def opened (p : Machine σ) : Machine σ := p.modifyEnv fun env => (Run.enterFault.run env).2

def closed (p : Machine σ) : Machine σ := p.modifyEnv fun env => (Run.leaveFault.run env).2

def told (c : ChainState σ) (context : FaultContext) (p : Machine σ) : Machine σ :=
  { p with site := ((c.handler context).run p.site).2 }

/-- What the chain's handler leaves to what was there before. -/
def captured (c : ChainState σ) (context : FaultContext) (p : Machine σ) : Machine σ :=
  closed (restoreAll c.previous (told c context (opened p)))

/-- What is done if nothing was remembered. -/
def raiseDefault (k : Kernel σ) (signal : SignalNumber) : Exec σ Unit := do
  modify (·.setDisposition signal (.plainDefault signal))
  k.raise signal

theorem onSignal_attached (k : Kernel σ) {context : FaultContext} {p : Machine σ}
    {c : ChainState σ} (hc : p.chain = some c)
    (hdetails : (p.dispositions context.signal).lostDetails = false) :
    (onSignal k context).run p =
      (match ChainState.previousFor? c context.signal with
        | some previous => invokePrevious k previous context
        | none => raiseDefault k context.signal).run (captured c context p) := by
  unfold onSignal
  rw [run_get, if_neg (by simp [hdetails])]
  have hcapture : (capture context).run (opened p) =
      .ok (ChainState.previousFor? c context.signal)
        (restoreAll c.previous (told c context (opened p))) := by
    have hopened : (opened p).chain = some c := hc
    unfold capture
    rw [run_get, hopened]
    rfl
  have hopen : (Run.enterFault : Exec σ Unit).run p = .ok () (opened p) := rfl
  rw [run_bind_ok hopen, run_bind_ok hcapture]
  rfl

theorem onSignal_unattached (k : Kernel σ) {context : FaultContext} {p : Machine σ}
    (hc : p.chain = none) (hdetails : (p.dispositions context.signal).lostDetails = false) :
    (onSignal k context).run p = (raiseDefault k context.signal).run (closed (opened p)) := by
  unfold onSignal
  rw [run_get, if_neg (by simp [hdetails])]
  have hcapture : (capture context).run (opened p) = .ok none (opened p) := by
    have hopened : (opened p).chain = none := hc
    unfold capture
    rw [run_get, hopened]
    rfl
  have hopen : (Run.enterFault : Exec σ Unit).run p = .ok () (opened p) := rfl
  rw [run_bind_ok hopen, run_bind_ok hcapture]
  rfl

theorem onSignal_lost (k : Kernel σ) {context : FaultContext} {p : Machine σ}
    (hdetails : (p.dispositions context.signal).lostDetails = true) :
    (onSignal k context).run p =
      .ok () (p.setDisposition context.signal (.chainRepaired context.signal)) := by
  unfold onSignal
  rw [run_get, if_pos hdetails]
  rfl

theorem view_captured (c : ChainState σ) (context : FaultContext) (p : Machine σ) :
    (captured c context p).view =
      ⟨fun s => if s ∈ Descriptor.codes then c.previous s else p.dispositions s, p.chain,
        ((c.handler context).run (opened p).site).2.host⟩ := by
  unfold captured closed
  rw [Machine.view_modifyEnv, restoreAll, view_setAll]
  rfl

theorem captured_foreign {p : Machine σ} {c : ChainState σ} (context : FaultContext)
    (hprevious : ∀ s, (c.previous s).handler ≠ .chain)
    (hothers : ∀ s ∉ Descriptor.codes, (p.dispositions s).handler ≠ .chain) (s : SignalNumber) :
    ((captured c context p).dispositions s).handler ≠ .chain := by
  obtain ⟨hdisp, -, -⟩ := View.mk.inj (view_captured c context p)
  rw [hdisp]
  exact restored_foreign hprevious hothers s

theorem lostDetails_chain : Disposition.chain.lostDetails = false := by decide

/-- What the chain's handler does first: the attached handler is run, and then all that was
remembered is put back. -/
def captureFault (c : ChainState σ) (context : FaultContext) : Exec σ Unit := do
  Run.enterFault
  let _ ← c.handler context
  modify (restoreAll c.previous)
  Run.leaveFault

theorem captureFault_run (c : ChainState σ) (context : FaultContext) (p : Machine σ) :
    (captureFault c context).run p = .ok () (captured c context p) := rfl

theorem onSignal_eq (k : Kernel σ) (context : FaultContext) {p : Machine σ} {c : ChainState σ}
    (hc : p.chain = some c) (hcodes : context.signal ∈ Descriptor.codes)
    (hown : p.dispositions context.signal = .chain) :
    (onSignal k context).run p =
      (do
        captureFault c context
        invokePrevious k (c.previous context.signal) context).run p := by
  have hprevious : ChainState.previousFor? c context.signal = some (c.previous context.signal) := by
    simp [ChainState.previousFor?, hcodes]
  rw [onSignal_attached k hc (by rw [hown, lostDetails_chain]), hprevious,
    run_bind_ok (captureFault_run c context p)]

theorem depth_captured {c : ChainState σ} {context : FaultContext} {p : Machine σ}
    (balanced : ∀ s, ((c.handler context).run s).2.env.marks.depth = s.env.marks.depth) :
    (captured c context p).site.env.marks.depth = p.site.env.marks.depth := by
  have hsite : (captured c context p).site.env.marks =
      ((c.handler context).run (opened p).site).2.env.marks.leave := by
    unfold captured closed Machine.modifyEnv
    rw [restoreAll, site_setAll]
    rfl
  rw [hsite]
  change ((c.handler context).run (opened p).site).2.env.marks.depth - 1 = _
  rw [balanced]
  rfl

/-- What is done of what was remembered for a signal: the signal is raised again for the default
action, a handler is called as it expects it, and there may be nothing to do. -/
def IsRemembered (k : Kernel σ) (d : Disposition) (context : FaultContext) (action : Exec σ Unit) :
    Prop :=
  d.handler = .default ∧ action = k.raise context.signal ∨
  d.handler ≠ .default ∧ (d.flags.siginfo ∨ d.handler ≠ .ignore) ∧
    action = k.call d.handler d.flags.siginfo context ∨
  d.handler = .ignore ∧ ¬d.flags.siginfo ∧ action = pure ()

theorem invokePrevious_remembered (k : Kernel σ) (d : Disposition) (context : FaultContext) :
    IsRemembered k d context (invokePrevious k d context) := by
  unfold invokePrevious
  by_cases hdefault : d.handler = .default
  · rw [if_pos hdefault]
    exact .inl ⟨hdefault, rfl⟩
  · rw [if_neg hdefault]
    by_cases hsiginfo : d.flags.siginfo
    · rw [if_pos hsiginfo]
      exact .inr (.inl ⟨hdefault, .inl hsiginfo, by rw [hsiginfo]⟩)
    · rw [if_neg hsiginfo]
      by_cases hignore : d.handler = .ignore
      · rw [if_neg (not_not_intro hignore)]
        exact .inr (.inr ⟨hignore, hsiginfo, rfl⟩)
      · rw [if_pos hignore]
        exact .inr (.inl ⟨hdefault, .inr hignore, by rw [Bool.eq_false_iff.2 hsiginfo]⟩)

variable {masked : Prop} {P : View σ → Prop} {ready : SignalNumber → View σ → Prop}

theorem invokePrevious_upholds {k : Kernel σ} (hk : k.Reliable masked P ready) {d : Disposition}
    {context : FaultContext} (hready : d.handler = .chain → ∀ v, P v → ready context.signal v) :
    Upholds masked P (invokePrevious k d context) := by
  intro p hmasked hview
  have hother : d.handler = .chain → ready context.signal p.view := fun h => hready h _ hview
  unfold invokePrevious
  split
  · exact hk.raise _ p hmasked hview
  · split
    · exact hk.call _ _ _ p hother hmasked hview
    · split
      · exact hk.call _ _ _ p hother hmasked hview
      · exact .ok hview fun _ => .refl p

theorem raiseDefault_upholds {k : Kernel σ} (hk : k.Reliable masked P ready)
    (hset : ∀ v s d, d.handler ≠ .chain → P v → P ⟨v.dispositions.set s d, v.chain, v.host⟩)
    (signal : SignalNumber) : Upholds masked P (raiseDefault k signal) := by
  refine Upholds.bind (.change (fun p hview => ?_) fun _ => Kernel.resumes_setDisposition _ _)
    fun _ => hk.raise signal
  rw [Machine.view_setDisposition]
  exact hset p.view signal _ nofun hview

end CrashCapture.Chain
