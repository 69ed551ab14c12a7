import CrashCapture.Proofs.Chain.Transparency
import Mathlib.Logic.Function.Basic

namespace CrashCapture

variable {σ : Type}

namespace Machine

/-- The alternate stack of each thread. -/
def altstacks (p : Machine σ) : ThreadId → Option Mapping := fun id => (p.threads id).altstack

theorem altstacks_setThread (t : Thread) (p : Machine σ) :
    (p.setThread t).altstacks = Function.update p.altstacks p.running t.altstack := by
  funext id
  by_cases h : id = p.running <;> simp [altstacks, setThread, h]

theorem altstack_congr {p q : Machine σ} (registered : q.altstacks = p.altstacks)
    (running : q.running = p.running) : q.thread.altstack = p.thread.altstack := by
  change q.altstacks q.running = p.altstacks p.running
  rw [registered, running]

/-- What of a thread does not depend on its pending signals. -/
def Settled {α : Type} (part : Thread → α) : Prop :=
  ∀ (signal : SignalNumber) (t : Thread), part (t.discard signal) = part t

variable {α : Type} {part : Thread → α}

theorem part_discardPending (settled : Settled part) (signals : List SignalNumber) (p : Machine σ)
    (id : ThreadId) : part ((p.discardPending signals).threads id) = part (p.threads id) := by
  have hdiscard (t : Thread) : part (signals.foldl (fun t s => t.discard s) t) = part t := by
    induction signals generalizing t with
    | nil => rfl
    | cons s signals ih => exact (ih (t.discard s)).trans (settled s t)
  unfold discardPending
  split
  · rfl
  · exact hdiscard (p.threads id)

theorem part_setDisposition (settled : Settled part) (signal : SignalNumber) (d : Disposition)
    (p : Machine σ) (id : ThreadId) :
    part ((p.setDisposition signal d).threads id) = part (p.threads id) := by
  unfold setDisposition
  split
  · exact part_discardPending settled _ _ id
  · rfl

theorem core_setDisposition (signal : SignalNumber) (d : Disposition) (p : Machine σ) :
    (p.setDisposition signal d).core = p.core := by
  unfold setDisposition discardPending
  split
  · split <;> rfl
  · rfl

end Machine

namespace Chain

theorem part_setAll {α : Type} (part : Thread → α) (settled : Machine.Settled part)
    (codes : List SignalNumber) (d : SignalNumber → Disposition) (p : Machine σ) (id : ThreadId) :
    part ((setAll codes d p).threads id) = part (p.threads id) := by
  induction codes generalizing p with
  | nil => rfl
  | cons code codes ih => rw [setAll_cons, ih, Machine.part_setDisposition settled]

theorem altstacks_setAll (codes : List SignalNumber) (d : SignalNumber → Disposition)
    (p : Machine σ) : (setAll codes d p).altstacks = p.altstacks :=
  funext (part_setAll Thread.altstack (fun _ _ => rfl) codes d p)

theorem onAltstack_setAll (codes : List SignalNumber) (d : SignalNumber → Disposition)
    (p : Machine σ) : (setAll codes d p).thread.onAltstack = p.thread.onAltstack := by
  unfold Machine.thread Machine.running
  rw [site_setAll]
  exact part_setAll Thread.onAltstack (fun _ _ => rfl) codes d p _

theorem core_setAll (codes : List SignalNumber) (d : SignalNumber → Disposition)
    (p : Machine σ) : (setAll codes d p).core = p.core := by
  induction codes generalizing p with
  | nil => rfl
  | cons code codes ih => rw [setAll_cons, ih, Machine.core_setDisposition]

/-- The alternate stacks are those from before, but for the one that a chain has mapped for the running
thread, which does not run on it. -/
def Lent (before : ThreadId → Option Mapping) (p : Machine σ) : Option SignalStack → Prop
  | none => p.altstacks = before
  | some s => s.old = before p.running ∧
    p.altstacks = Function.update before p.running (some s.area) ∧ p.thread.onAltstack = false

theorem Lent.congr {before : ThreadId → Option Mapping} {p q : Machine σ}
    {altstack : Option SignalStack} (h : Lent before p altstack) (same : q.altstacks = p.altstacks)
    (running : q.running = p.running) (standing : q.thread.onAltstack = p.thread.onAltstack) :
    Lent before q altstack := by
  unfold Lent
  rw [same, running, standing]
  exact h

/-- Nothing but the memory of a process has changed, and the alternate stack of the running thread. -/
structure Lends (p q : Machine σ) (altstack : Option SignalStack) : Prop where
  lent : Lent p.altstacks q altstack
  core : q.core = p.core
  running : q.running = p.running
  children : q.site.env.children = p.site.env.children

theorem installStack_lends (p : Machine σ) :
    (∃ e, installStack.run p = (.error e, p)) ∨
    ∃ altstack q, installStack.run p = (.ok altstack, q) ∧ Lends p q altstack := by
  unfold installStack
  rw [stateM_run_get]
  dsimp only
  by_cases hroom : hasRoom p.thread
  · rw [if_pos hroom]
    exact .inr ⟨none, p, rfl, rfl, rfl, rfl, rfl⟩
  · rw [if_neg hroom]
    cases p.site.env.memory.reserve (Memory.pageSize + signalStackSize) with
    | none => exact .inl ⟨_, rfl⟩
    | some mapped =>
      dsimp only
      by_cases hcommits : (!p.site.env.memory.quota.commits) = true
      · rw [if_pos hcommits]
        exact .inl ⟨_, rfl⟩
      · rw [if_neg hcommits]
        by_cases honstack : p.thread.onAltstack
        · rw [if_pos honstack]
          exact .inl ⟨_, rfl⟩
        · rw [if_neg honstack]
          have hstanding (stack : Option Mapping) :
              (p.setThread { p.thread with altstack := stack }).thread.onAltstack = false := by
            rw [Machine.thread_setThread]
            exact Bool.eq_false_iff.2 honstack
          exact .inr ⟨_, _, rfl, ⟨rfl, p.altstacks_setThread _, hstanding _⟩, rfl, rfl, rfl⟩

/-- Attaching fails and changes nothing, or the chain remembers the stack that it takes the place of. -/
theorem attach_lends (handler : FaultHandler σ) (p : Machine σ) :
    (∃ e, (attach handler).run p = (.error e, p)) ∨
    ∃ c q, (attach handler).run p = (.ok (), q) ∧ q.chain = some c ∧ Lends p q c.altstack := by
  unfold attach
  rw [stateM_run_get]
  by_cases hchain : isAttached p
  · rw [if_pos hchain]
    exact .inl ⟨_, rfl⟩
  · rw [if_neg hchain]
    rcases installStack_lends p with
      ⟨e, hrun⟩ | ⟨altstack, q, hrun, hlent, hcore, hrunning, hchildren⟩
    · rw [stateM_run_bind hrun]
      exact .inl ⟨e, rfl⟩
    · have hstacks := altstacks_setAll Descriptor.codes (fun _ => .chain) q
      have hstanding := onAltstack_setAll Descriptor.codes (fun _ => .chain) q
      have hsite := site_setAll Descriptor.codes (fun _ => .chain) q
      have hthread : (setAll Descriptor.codes (fun _ => .chain) q).running = q.running :=
        congrArg (·.env.thread) hsite
      exact .inr ⟨_, _, stateM_run_bind hrun _, rfl, hlent.congr hstacks hthread hstanding,
        (core_setAll _ _ q).trans hcore, hthread.trans hrunning,
        (congrArg (·.env.children) hsite).trans hchildren⟩

theorem children_attach (handler : FaultHandler σ) (p : Machine σ) :
    ((attach handler).run p).2.site.env.children = p.site.env.children := by
  rcases attach_lends handler p with ⟨e, hrun⟩ | ⟨c, q, hrun, -, hlends⟩
  · rw [hrun]
  · rw [hrun]
    exact hlends.children

theorem altstacks_restoreStack {before : ThreadId → Option Mapping} {p : Machine σ}
    {s : SignalStack} (h : Lent before p (some s)) : (restoreStack s p).altstacks = before := by
  obtain ⟨hold, hstacks, hstanding⟩ := h
  have hown : p.thread.altstack = some s.area := by
    change p.altstacks p.running = _
    rw [hstacks, Function.update_self]
  unfold restoreStack
  rw [if_neg (by simp [hown])]
  change (p.setThread (p.thread.register s.old)).altstacks = before
  rw [Thread.register_of_off hstanding, Machine.altstacks_setThread, hstacks, Function.update_idem, hold,
    Function.update_eq_self]

theorem altstacks_detach {before : ThreadId → Option Mapping} {p : Machine σ} {c : ChainState σ}
    (attached : p.chain = some c) (h : Lent before p c.altstack) :
    (detach.run p).2.altstacks = before := by
  have hstacks (p : Machine σ) : (restoreOwn c.previous p).altstacks = p.altstacks :=
    altstacks_setAll _ _ p
  have hsite (p : Machine σ) : (restoreOwn c.previous p).site = p.site := site_setAll _ _ p
  unfold detach
  rw [stateM_run_get, attached]
  dsimp only
  cases hc : c.altstack with
  | none =>
    rw [hc] at h
    exact (hstacks _).trans h
  | some s =>
    rw [hc] at h
    exact altstacks_restoreStack (h.congr (hstacks _) (congrArg (·.env.thread) (hsite _))
      (onAltstack_setAll _ _ _))

theorem core_detach (p : Machine σ) : (detach.run p).2.core = p.core := by
  cases hc : p.chain with
  | none => rw [detach_of_none hc]
  | some c =>
    have hown : (restoreOwn c.previous { p with chain := none }).core = p.core := core_setAll _ _ _
    unfold detach
    rw [stateM_run_get, hc]
    dsimp only
    cases c.altstack with
    | none => exact hown
    | some s =>
      have hstack : ∀ q : Machine σ, (restoreStack s q).core = q.core := by
        intro q
        unfold restoreStack
        split <;> rfl
      exact (hstack _).trans hown

end Chain

end CrashCapture
