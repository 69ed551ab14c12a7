import CrashCapture.Proofs.Chain.Once

namespace CrashCapture

variable {σ : Type}

/-- A handler of somebody else that attaches a chain of its own. -/
def Handler.Attaches : Handler → Prop
  | .other r => r.effect = .attaches
  | _ => False

/-- The same chain is attached, or none, and no handler that is in place or remembered attaches
another one. -/
structure Kept (chain : Option (ChainState σ)) (v : View σ) : Prop where
  same : v.chain = chain
  current : ∀ s, ¬(v.dispositions s).handler.Attaches
  previous : ∀ c, chain = some c → ∀ s, ¬(c.previous s).handler.Attaches

namespace Kept

variable {chain : Option (ChainState σ)} {v : View σ}

theorem set (h : Kept chain v) (s : SignalNumber) {d : Disposition} (hd : ¬d.handler.Attaches) :
    Kept chain ⟨v.dispositions.set s d, v.chain, v.host⟩ := by
  refine ⟨h.same, fun s' => ?_, h.previous⟩
  by_cases heq : s' = s
  · simpa [Dispositions.set, heq] using hd
  · simpa [Dispositions.set, heq] using h.current s'

/-- Some of what was remembered is put back. -/
theorem restored (h : Kept chain v) {c : ChainState σ} (hc : chain = some c)
    (back : SignalNumber → Prop) [DecidablePred back] (host : σ) :
    Kept chain ⟨fun s => if back s then c.previous s else v.dispositions s, v.chain, host⟩ := by
  refine ⟨h.same, fun s => ?_, h.previous⟩
  by_cases hs : back s
  · simpa only [if_pos hs] using h.previous c hc s
  · simpa only [if_neg hs] using h.current s

theorem previousFor? (h : Kept chain v) {c : ChainState σ} (hc : chain = some c)
    {signal : SignalNumber} {d : Disposition}
    (hd : Chain.ChainState.previousFor? c signal = some d) : ¬d.handler.Attaches := by
  unfold Chain.ChainState.previousFor? at hd
  split at hd
  · cases hd
    exact h.previous c hc signal
  · cases hd

end Kept

namespace Kernel

variable {chain : Option (ChainState σ)}

/-- A system that keeps the chain, whatever is asked of it but to call what attaches another one. -/
structure Keeps (chain : Option (ChainState σ)) (k : Kernel σ) : Prop where
  raise : ∀ s, Upholds False (Kept chain) (k.raise s)
  call : ∀ h detailed context, ¬h.Attaches →
    Upholds False (Kept chain) (k.call h detailed context)
  fault : ∀ s, Upholds False (Kept chain) (k.fault s)
  settle : Upholds False (Kept chain) k.settle

theorem setDisposition_keeps (s : SignalNumber) {d : Disposition} (hd : ¬d.handler.Attaches) :
    Upholds False (Kept chain) (modify (·.setDisposition s d) : Exec σ PUnit) := by
  refine .change (fun p h => ?_) False.elim
  rw [Machine.view_setDisposition]
  exact h.set s hd

variable {k : Kernel σ}

theorem runHandler_keeps (hk : k.Keeps chain) (signal : SignalNumber) {d : Disposition}
    (hd : ¬d.handler.Attaches) : Upholds False (Kept chain) (runHandler k signal d) := by
  intro p _ h
  have hreset : Kept chain (reset signal d p).view := by
    unfold reset
    split
    · rw [Machine.view_setDisposition]
      exact h.set signal id
    · exact h
  have hleave : Upholds False (Kept chain) (modify (leave p) : Exec σ PUnit) :=
    .change (fun _ h => h) False.elim
  have hentered := hk.settle.bind fun _ => (hk.call d.handler true
    ⟨signal, some ⟨signal, 0⟩, some (interrupted p.site.env)⟩ hd).bind fun _ =>
      hleave.bind fun _ => hk.settle
  rw [runHandler_run]
  exact (hentered (enter signal d p.site.env.stack (reset signal d p)) False.elim hreset).from
    False.elim

theorem act_keeps (hk : k.Keeps chain) (signal : SignalNumber) :
    Upholds False (Kept chain) (act k signal) := by
  intro p _ h
  have hcurrent := h.current signal
  unfold act
  rw [run_get]
  change ¬(p.dispositions signal).handler.Attaches at hcurrent
  generalize p.dispositions signal = d at hcurrent
  dsimp only
  split
  · split
    · exact .ok h False.elim
    · exact .error h
  · exact .ok h False.elim
  · exact runHandler_keeps hk signal hcurrent p False.elim h

theorem send_keeps (hk : k.Keeps chain) (signal : SignalNumber) :
    Upholds False (Kept chain) (send k signal) := by
  intro p _ h
  unfold send
  split
  · exact .ok h False.elim
  · rw [run_modify, run_get]
    have hdiscarded : Kept chain (p.discardPending (revokes signal)).view := by
      rw [Machine.view_discardPending]
      exact h
    split
    · exact .ok hdiscarded False.elim
    · exact (act_keeps hk signal _ False.elim hdiscarded).from False.elim

theorem trapInto_keeps (hk : k.Keeps chain) (signal : SignalNumber) :
    Upholds False (Kept chain) (trapInto k signal) := by
  intro p _ h
  unfold trapInto
  rw [run_get]
  split
  · exact .error h
  · exact act_keeps hk signal p False.elim h

theorem deliverPending_keeps (hk : k.Keeps chain) :
    Upholds False (Kept chain) (deliverPending k) := by
  intro p _ h
  unfold deliverPending
  rw [run_get]
  cases p.thread.next? with
  | none => exact .ok h False.elim
  | some signal =>
    have hhandled := (act_keeps hk signal).bind fun _ => hk.settle
    exact (hhandled (p.onThread (·.dequeue signal)) False.elim h).from False.elim

theorem routine_keeps (r : Routine) (hr : ¬(Handler.other r).Attaches) (detailed : Bool)
    (context : FaultContext) :
    Upholds False (Kept chain) (r.run detailed context : Exec σ Unit) := by
  intro p _ h
  unfold Routine.run
  cases heffect : r.effect with
  | returns => exact .ok h False.elim
  | exits => exact .error h
  | attaches => exact absurd heffect hr

end Kernel

namespace Chain

variable {chain : Option (ChainState σ)} {k : Kernel σ}

theorem invokePrevious_keeps (hk : k.Keeps chain) {d : Disposition} (hd : ¬d.handler.Attaches)
    (context : FaultContext) : Upholds False (Kept chain) (invokePrevious k d context) := by
  unfold invokePrevious
  split
  · exact hk.raise _
  · split
    · exact hk.call _ _ _ hd
    · split
      · exact hk.call _ _ _ hd
      · exact .pure ()

theorem raiseDefault_keeps (hk : k.Keeps chain) (signal : SignalNumber) :
    Upholds False (Kept chain) (raiseDefault k signal) :=
  (Kernel.setDisposition_keeps signal id).bind fun _ => hk.raise signal

theorem onSignal_keeps (hk : k.Keeps chain) (context : FaultContext) :
    Upholds False (Kept chain) (onSignal k context) := by
  intro p _ h
  cases hdetails : (p.dispositions context.signal).lostDetails with
  | true =>
    rw [onSignal_lost k hdetails]
    refine .ok ?_ False.elim
    rw [Machine.view_setDisposition]
    exact h.set context.signal id
  | false =>
    cases hc : p.chain with
    | none =>
      rw [onSignal_unattached k hc hdetails]
      exact (raiseDefault_keeps hk context.signal (closed (opened p)) False.elim h).from False.elim
    | some c =>
      have hchain : chain = some c := h.same.symm.trans hc
      have hcaptured : Kept chain (captured c context p).view := by
        rw [view_captured]
        exact h.restored hchain _ _
      rw [onSignal_attached k hc hdetails]
      cases hprevious : ChainState.previousFor? c context.signal with
      | none => exact (raiseDefault_keeps hk context.signal _ False.elim hcaptured).from False.elim
      | some d =>
        have hd := h.previousFor? hchain hprevious
        exact (invokePrevious_keeps hk hd context _ False.elim hcaptured).from False.elim

theorem invokePreviousHandler_keeps (hk : k.Keeps chain) (context : FaultContext) :
    Upholds False (Kept chain) (invokePreviousHandler k context) := by
  intro p _ h
  unfold invokePreviousHandler
  rw [run_get]
  cases hc : p.chain with
  | none => exact .ok h False.elim
  | some c =>
    have hchain : chain = some c := h.same.symm.trans hc
    have hrestored : Kept chain (restoreAll c.previous p).view := by
      rw [restoreAll, view_setAll]
      exact h.restored hchain _ _
    dsimp only
    rw [run_modify]
    cases hprevious : ChainState.previousFor? c context.signal with
    | none => exact .ok hrestored False.elim
    | some d =>
      have hd := h.previousFor? hchain hprevious
      exact (invokePrevious_keeps hk hd context _ False.elim hrestored).from False.elim

end Chain

namespace Kernel

variable {chain : Option (ChainState σ)}

/-- By induction on the room: each call of a handler has less of it. -/
theorem withRoom_keeps (chain : Option (ChainState σ)) (room : Nat) :
    (withRoom room : Kernel σ).Keeps chain := by
  induction room with
  | zero =>
    exact ⟨fun _ _ _ h => .error h, fun _ _ _ _ _ _ h => .error h, fun _ _ _ h => .error h,
      fun _ _ h => .error h⟩
  | succ room ih =>
    refine ⟨send_keeps ih, fun h detailed context hh => ?_,
      fun s => (trapInto_keeps ih s).bind fun _ => ih.fault s, deliverPending_keeps ih⟩
    cases h with
    | chain => exact Chain.onSignal_keeps ih context
    | other r => exact routine_keeps r hh detailed context
    | default => exact ih.fault .segv
    | ignore => exact ih.fault .segv

end Kernel

namespace Chain

variable {chain : Option (ChainState σ)} {k : Kernel σ}

theorem Delivery.keeps (hk : k.Keeps chain) (delivery : Delivery) (signal : SignalNumber) :
    Upholds False (Kept chain) (delivery.run k signal) := by
  cases delivery with
  | sent => exact Kernel.send_keeps hk signal
  | trapped => exact Kernel.trapInto_keeps hk signal

theorem raise_keeps (hk : k.Keeps chain) (fault : Fault) :
    Upholds False (Kept chain) (fault.raise k) := by
  have hunblock : Upholds False (Kept chain)
      (modify (·.onThread (·.unblock .abrt)) : Exec σ PUnit) :=
    .change (fun _ h => h) False.elim
  cases fault with
  | segv | ill | fpe | bus => exact hk.fault _
  | trap => exact Kernel.trapInto_keeps hk .trap
  | abort =>
    exact hunblock.bind fun _ => hk.settle.bind fun _ => (hk.raise .abrt).bind fun _ =>
      (Kernel.setDisposition_keeps .abrt id).bind fun _ => hk.raise .abrt

end Chain

end CrashCapture
