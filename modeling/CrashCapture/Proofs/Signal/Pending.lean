import CrashCapture.Proofs.Signal.Upholds

namespace CrashCapture

variable {σ : Type}

namespace Thread

variable {t : Thread} {s : SignalNumber}

theorem next?_eq_none_iff : t.next? = none ↔ ∀ s ∈ t.pending, s ∈ t.blocked := by
  constructor
  · intro hnone s hs
    refine Decidable.byContradiction fun hblocked => ?_
    have hready : s ∈ t.pending.filter fun s => !t.blocked.contains s := by simp [hs, hblocked]
    unfold next? at hnone
    have hempty := List.min?_eq_none_iff.1 hnone
    split at hempty
    · rw [hempty] at hready
      cases hready
    · next hfaults => exact hfaults (List.isEmpty_iff.2 hempty)
  · intro hblocked
    cases hnext : t.next? with
    | none => rfl
    | some s =>
      obtain ⟨hpending, hunblocked⟩ := Kernel.mem_of_next? hnext
      exact absurd (hblocked s hpending) hunblocked

/-- If only one signal can be handled then it is the next one. -/
theorem next?_eq_some (hs : s ∈ t.pending) (hunblocked : s ∉ t.blocked)
    (honly : ∀ s' ∈ t.pending, s' ∉ t.blocked → s' = s) : t.next? = some s := by
  cases hnext : t.next? with
  | none => exact absurd (next?_eq_none_iff.1 hnext s hs) hunblocked
  | some s' =>
    obtain ⟨hpending, hunblocked'⟩ := Kernel.mem_of_next? hnext
    rw [honly s' hpending hunblocked']

theorem pending_foldl_discard (signals : List SignalNumber) (t : Thread) :
    (signals.foldl (fun t signal => t.discard signal) t).pending ⊆ t.pending := by
  induction signals generalizing t with
  | nil => exact List.Subset.refl _
  | cons signal signals ih => exact List.Subset.trans (ih _) List.filter_sublist.subset

end Thread

namespace Machine

/-- The same thread goes on, with the same signals blocked, and nothing more is pending on it. -/
structure Eases (p p' : Machine σ) : Prop where
  running : p'.running = p.running
  blocked : p'.thread.blocked = p.thread.blocked
  pending : p'.thread.pending ⊆ p.thread.pending

variable {p q r : Machine σ}

theorem Eases.refl (p : Machine σ) : p.Eases p := ⟨rfl, rfl, List.Subset.refl _⟩

theorem Eases.trans (h : p.Eases q) (h' : q.Eases r) : p.Eases r :=
  ⟨h'.running.trans h.running, h'.blocked.trans h.blocked, List.Subset.trans h'.pending h.pending⟩

theorem Eases.next? (h : p.Eases q) (hnone : p.thread.next? = none) : q.thread.next? = none := by
  rw [Thread.next?_eq_none_iff] at hnone ⊢
  intro s hs
  rw [h.blocked]
  exact hnone s (h.pending hs)

/-- What a client does is no matter of signals, if the same thread goes on. -/
theorem eases_site {site : Site σ} (h : site.env.thread = p.running) :
    p.Eases { p with site := site } := by
  have hthread : ({ p with site := site } : Machine σ).thread = p.thread := congrArg p.threads h
  refine ⟨h, by rw [hthread], ?_⟩
  rw [hthread]
  exact List.Subset.refl _

theorem eases_discardPending (signals : List SignalNumber) (p : Machine σ) :
    p.Eases (p.discardPending signals) := by
  obtain ⟨hrunning, hblocked, -⟩ := Kernel.resumes_discardPending signals p
  refine ⟨hrunning, hblocked, ?_⟩
  unfold discardPending
  split
  · exact List.Subset.refl _
  · exact Thread.pending_foldl_discard signals p.thread

theorem eases_setDisposition (signal : SignalNumber) (d : Disposition) (p : Machine σ) :
    p.Eases (p.setDisposition signal d) := by
  have hset : p.Eases { p with dispositions := p.dispositions.set signal d } :=
    ⟨rfl, rfl, List.Subset.refl _⟩
  unfold setDisposition
  split
  · exact hset.trans (eases_discardPending [signal] _)
  · exact hset

theorem eases_setAll (codes : List SignalNumber) (d : SignalNumber → Disposition) (p : Machine σ) :
    p.Eases (Chain.setAll codes d p) := by
  induction codes generalizing p with
  | nil => exact .refl p
  | cons code codes ih =>
    rw [Chain.setAll_cons]
    exact (eases_setDisposition code (d code) p).trans (ih _)

end Machine

namespace Kernel

theorem settle_idle (room : Nat) {p : Machine σ} (h : p.thread.next? = none) :
    (withRoom (room + 1)).settle.run p = .ok () p := by
  change (deliverPending (withRoom room)).run p = _
  unfold deliverPending
  rw [run_get, h]
  rfl

/-- Entering a handler, more signals are blocked. -/
theorem next?_enter {signal : SignalNumber} {d : Disposition} {stack : List UInt64} {p : Machine σ}
    (h : p.thread.next? = none) : (enter signal d stack p).thread.next? = none := by
  rw [Thread.next?_eq_none_iff] at h ⊢
  intro s hs
  rw [pending_enter] at hs
  rw [thread_enter]
  exact mem_foldl_block _ (h s hs)

/-- The default action of a handled signal ends the process. -/
theorem act_default {signal : SignalNumber} (k : Kernel σ) (hcodes : signal ∈ Descriptor.codes)
    {p : Machine σ} (h : (p.dispositions signal).handler = .default) :
    (act k signal).run p = .error (.killed signal) p := by
  have hfatal : ∀ s ∈ Descriptor.codes, (ignoredByDefault s || isTerminalStop s) = false := by
    decide
  unfold act
  rw [run_get]
  dsimp only
  rw [h]
  dsimp only
  rw [hfatal signal hcodes]
  rfl

theorem send_run (k : Kernel σ) {signal : SignalNumber} (hcodes : signal ∈ Descriptor.codes)
    (p : Machine σ) : (send k signal).run p =
      if signal ∈ p.thread.blocked then .ok () (p.onThread (·.queue signal))
      else (act k signal).run p := by
  have hsignals : ∀ s ∈ Descriptor.codes, isSignal s = true ∧ revokes s = [] := by decide
  obtain ⟨hsignal, hrevokes⟩ := hsignals signal hcodes
  have hnothing : p.discardPending [] = p := rfl
  unfold send
  rw [if_neg (by simp [hsignal]), run_modify, hrevokes, hnothing, run_get]
  by_cases hblocked : signal ∈ p.thread.blocked
  · rw [if_pos (by simpa using hblocked), if_pos hblocked]
    rfl
  · rw [if_neg (by simpa using hblocked), if_neg hblocked]

end Kernel

end CrashCapture
