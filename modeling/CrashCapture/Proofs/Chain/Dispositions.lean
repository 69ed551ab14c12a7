import CrashCapture.Chain
import CrashCapture.Proofs.Outcome

namespace CrashCapture

variable {σ : Type}

theorem Thread.register_of_off {t : Thread} (off : t.onAltstack = false) (stack : Option Mapping) :
    t.register stack = { t with altstack := stack } := by
  rw [register, off, if_neg Bool.false_ne_true]

/-- What the chain is about, apart from threads and the environment. -/
structure View (σ : Type) where
  dispositions : Dispositions
  chain : Option (ChainState σ)
  host : σ

namespace Machine

def view (p : Machine σ) : View σ := ⟨p.dispositions, p.chain, p.site.host⟩

@[simp] theorem view_modifyEnv (f : Environment → Environment) (p : Machine σ) :
    (p.modifyEnv f).view = p.view := rfl

theorem thread_setThread (t : Thread) (p : Machine σ) : (p.setThread t).thread = t := if_pos rfl

theorem thread_onThread (f : Thread → Thread) (p : Machine σ) :
    (p.onThread f).thread = f p.thread := thread_setThread _ p

theorem setThread_setThread (t u : Thread) (p : Machine σ) :
    (p.setThread t).setThread u = p.setThread u := by
  have hthreads : ((p.setThread t).setThread u).threads = (p.setThread u).threads := by
    funext id
    by_cases h : id = p.running
    · exact (if_pos h).trans (if_pos h).symm
    · exact (if_neg h).trans ((if_neg h).trans (if_neg h).symm)
  exact congrArg (fun threads => { p with threads }) hthreads

theorem setThread_thread (p : Machine σ) : p.setThread p.thread = p := by
  have hthreads : (p.setThread p.thread).threads = p.threads := by
    funext id
    by_cases h : id = p.running
    · exact (if_pos h).trans (congrArg p.threads h.symm)
    · exact if_neg h
  exact congrArg (fun threads => { p with threads }) hthreads

@[simp] theorem view_discardPending (signals : List SignalNumber) (p : Machine σ) :
    (p.discardPending signals).view = p.view := by
  unfold discardPending
  split <;> rfl

@[simp] theorem view_setDisposition (signal : SignalNumber) (d : Disposition) (p : Machine σ) :
    (p.setDisposition signal d).view =
      ⟨p.dispositions.set signal d, p.chain, p.site.host⟩ := by
  unfold setDisposition
  split
  · rw [view_discardPending]
    rfl
  · rfl

theorem site_setDisposition (signal : SignalNumber) (d : Disposition) (p : Machine σ) :
    (p.setDisposition signal d).site = p.site := by
  unfold setDisposition discardPending
  split
  · split <;> rfl
  · rfl

end Machine

namespace Chain

theorem restored_foreign {ds previous : Dispositions}
    (hprevious : ∀ s, (previous s).handler ≠ .chain)
    (hothers : ∀ s ∉ Descriptor.codes, (ds s).handler ≠ .chain) (s : SignalNumber) :
    (if s ∈ Descriptor.codes then previous s else ds s).handler ≠ .chain := by
  by_cases hs : s ∈ Descriptor.codes
  · rw [if_pos hs]
    exact hprevious s
  · rw [if_neg hs]
    exact hothers s hs

theorem setAll_cons (code : SignalNumber) (codes : List SignalNumber)
    (d : SignalNumber → Disposition) (p : Machine σ) :
    setAll (code :: codes) d p = setAll codes d (p.setDisposition code (d code)) := rfl

@[simp] theorem view_setAll (codes : List SignalNumber) (d : SignalNumber → Disposition)
    (p : Machine σ) :
    (setAll codes d p).view =
      ⟨fun s => if s ∈ codes then d s else p.dispositions s, p.chain, p.site.host⟩ := by
  induction codes generalizing p with
  | nil => rfl
  | cons code codes ih =>
    obtain ⟨hset, hchain, hhost⟩ := View.mk.inj (p.view_setDisposition code (d code))
    rw [setAll_cons, ih, hset, hchain, hhost]
    congr 1
    funext s
    by_cases hs : s = code
    · subst hs
      simp [Dispositions.set]
    · simp [Dispositions.set, hs]

theorem site_setAll (codes : List SignalNumber) (d : SignalNumber → Disposition) (p : Machine σ) :
    (setAll codes d p).site = p.site := by
  induction codes generalizing p with
  | nil => rfl
  | cons code codes ih => rw [setAll_cons, ih, Machine.site_setDisposition]

/-- A stack is a matter of the thread and of memory. If there is none then nothing has changed. -/
theorem installStack_cases (p : Machine σ) :
    (∃ e, installStack.run p = (.error e, p)) ∨
    ∃ altstack p', installStack.run p = (.ok altstack, p') ∧ p'.view = p.view := by
  unfold installStack
  rw [stateM_run_get]
  dsimp only
  by_cases hroom : hasRoom p.thread
  · rw [if_pos hroom]
    exact .inr ⟨none, p, rfl, rfl⟩
  · rw [if_neg hroom]
    cases p.site.env.memory.reserve (Memory.pageSize + signalStackSize) with
    | none => exact .inl ⟨_, rfl⟩
    | some mapped =>
      dsimp only
      by_cases hcommits : (!p.site.env.memory.quota.commits) = true
      · rw [if_pos hcommits]
        exact .inl ⟨_, rfl⟩
      · rw [if_neg hcommits]
        by_cases honstack : p.thread.onAltstack
        · rw [if_pos honstack]
          exact .inl ⟨_, rfl⟩
        · rw [if_neg honstack]
          exact .inr ⟨_, _, rfl, rfl⟩

/-- Attaching fails and changes nothing, or it remembers all dispositions and takes the places of
the handled signals. -/
theorem attach_cases (handler : FaultHandler σ) (p : Machine σ) :
    (∃ e, (attach handler).run p = (.error e, p)) ∨
    p.chain = none ∧ ∃ altstack p', (attach handler).run p = (.ok (), p') ∧
      p'.view = ⟨fun s => if s ∈ Descriptor.codes then .chain else p.dispositions s,
        some ⟨p.dispositions, altstack, handler⟩, p.site.host⟩ := by
  unfold attach
  rw [stateM_run_get]
  by_cases hchain : isAttached p
  · rw [if_pos hchain]
    exact .inl ⟨_, rfl⟩
  · rw [if_neg hchain]
    have hnone : p.chain = none := by simpa [isAttached] using hchain
    rcases installStack_cases p with ⟨e, hrun⟩ | ⟨altstack, q, hrun, hview⟩
    · rw [stateM_run_bind hrun]
      exact .inl ⟨e, rfl⟩
    · obtain ⟨hdisp, -, hhost⟩ := View.mk.inj hview
      refine .inr ⟨hnone, altstack, _, stateM_run_bind hrun _, ?_⟩
      have hinstalled := view_setAll Descriptor.codes (fun _ => .chain) q
      obtain ⟨hset, -, hsite⟩ := View.mk.inj hinstalled
      rw [← hdisp, ← hhost, ← hset, ← hsite]
      rfl

theorem detach_of_none {p : Machine σ} (h : p.chain = none) : detach.run p = ((), p) := by
  unfold detach
  rw [stateM_run_get, h]
  rfl

theorem view_restoreStack (s : SignalStack) (p : Machine σ) : (restoreStack s p).view = p.view := by
  unfold restoreStack
  split <;> rfl

/-- Detaching puts back what was remembered, for the signals that still have the chain's handler. -/
theorem detach_of_some {p : Machine σ} {c : ChainState σ} (h : p.chain = some c) :
    (detach.run p).2.view = ⟨fun s =>
      if s ∈ Descriptor.codes ∧ (p.dispositions s).handler = .chain then c.previous s
      else p.dispositions s, none, p.site.host⟩ := by
  have hown : (restoreOwn c.previous { p with chain := none }).view = ⟨fun s =>
      if s ∈ Descriptor.codes ∧ (p.dispositions s).handler = .chain then c.previous s
      else p.dispositions s, none, p.site.host⟩ := by
    rw [restoreOwn, view_setAll]
    simp
  unfold detach
  rw [stateM_run_get, h, ← hown]
  dsimp only
  cases c.altstack with
  | none => rfl
  | some stack => exact view_restoreStack stack _

theorem host_detach (p : Machine σ) : (detach.run p).2.site.host = p.site.host := by
  cases hc : p.chain with
  | none => rw [detach_of_none hc]
  | some c => exact congrArg View.host (detach_of_some hc)

theorem files_restoreStack (s : SignalStack) (p : Machine σ) :
    (restoreStack s p).site.env.files = p.site.env.files := by
  unfold restoreStack
  split <;> rfl

theorem files_detach (p : Machine σ) : (detach.run p).2.site.env.files = p.site.env.files := by
  cases hc : p.chain with
  | none => rw [detach_of_none hc]
  | some c =>
    have hown : (restoreOwn c.previous { p with chain := none }).site = p.site := site_setAll _ _ _
    unfold detach
    rw [stateM_run_get, hc]
    dsimp only
    cases c.altstack with
    | none => exact congrArg (·.env.files) hown
    | some stack => exact (files_restoreStack stack _).trans (congrArg (·.env.files) hown)

end Chain

end CrashCapture
