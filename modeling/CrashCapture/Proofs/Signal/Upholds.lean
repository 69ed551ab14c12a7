import CrashCapture.Proofs.Chain.Dispositions
import CrashCapture.Signal.Delivery

namespace CrashCapture

variable {σ α β : Type}

/-- All handled signals are blocked in the running thread. -/
def Machine.Masked (p : Machine σ) : Prop := ∀ s ∈ Descriptor.codes, s ∈ p.thread.blocked

/-- The same thread goes on, with the same signals blocked, in as many faults as before. -/
structure Machine.Resumes (p p' : Machine σ) : Prop where
  running : p'.running = p.running
  blocked : p'.thread.blocked = p.thread.blocked
  marks : p'.site.env.marks = p.site.env.marks

namespace Machine.Resumes

variable {p p' p'' : Machine σ}

theorem refl (p : Machine σ) : p.Resumes p := ⟨rfl, rfl, rfl⟩

theorem trans (h : p.Resumes p') (h' : p'.Resumes p'') : p.Resumes p'' :=
  ⟨h'.running.trans h.running, h'.blocked.trans h.blocked, h'.marks.trans h.marks⟩

theorem masked (h : p.Resumes p') (hmasked : p.Masked) : p'.Masked := by
  unfold Machine.Masked
  rw [h.blocked]
  exact hmasked

end Machine.Resumes

/-- A property holds in the end, whether the process goes on or not. If all handled signals were
blocked, it goes on that way. -/
structure Upheld (masked : Prop) (P : View σ → Prop) (p : Machine σ)
    (r : EStateM.Result Ending (Machine σ) α) : Prop where
  view : P (endState r).view
  resumes : masked → ∀ a p', r = .ok a p' → p.Resumes p'

/-- Code that upholds a property, if need be with all handled signals blocked. -/
def Upholds (masked : Prop) (P : View σ → Prop) (x : Exec σ α) : Prop :=
  ∀ p, (masked → p.Masked) → P p.view → Upheld masked P p (x.run p)

variable {masked : Prop} {P : View σ → Prop}

theorem Upheld.bind {p q : Machine σ} {x : Exec σ α} {f : α → Exec σ β}
    (hx : Upheld masked P q (x.run q))
    (hf : ∀ a q', x.run q = .ok a q' → P q'.view → (masked → q.Resumes q') →
      Upheld masked P p ((f a).run q')) :
    Upheld masked P p ((x >>= f).run q) := by
  cases hrun : x.run q with
  | ok a q' =>
    rw [run_bind_ok hrun]
    have hview := hx.view
    rw [hrun] at hview
    exact hf a q' hrun hview fun hmasked => hx.resumes hmasked a q' hrun
  | error e q' =>
    rw [run_bind_error hrun]
    have hview := hx.view
    rw [hrun] at hview
    exact ⟨hview, fun _ a p' h => by cases h⟩

theorem Upheld.from {p q : Machine σ} {r : EStateM.Result Ending (Machine σ) α}
    (h : Upheld masked P q r) (hq : masked → p.Resumes q) : Upheld masked P p r :=
  ⟨h.view, fun hmasked a p' hr => (hq hmasked).trans (h.resumes hmasked a p' hr)⟩

theorem Upheld.ok {p p' : Machine σ} {a : α} (hview : P p'.view) (h : masked → p.Resumes p') :
    Upheld masked P p (.ok a p') := by
  refine ⟨hview, fun hmasked b q hr => ?_⟩
  cases hr
  exact h hmasked

theorem Upheld.error {p p' : Machine σ} {e : Ending} (hview : P p'.view) :
    Upheld masked P p (.error e p' : EStateM.Result Ending (Machine σ) α) :=
  ⟨hview, fun _ a q hr => by cases hr⟩

namespace Upholds

theorem pure (a : α) : Upholds masked P (Pure.pure a : Exec σ α) := fun p _ hview =>
  .ok hview fun _ => .refl p

theorem bind {x : Exec σ α} {f : α → Exec σ β} (hx : Upholds masked P x)
    (hf : ∀ a, Upholds masked P (f a)) : Upholds masked P (x >>= f) := by
  intro p hmasked hview
  refine (hx p hmasked hview).bind fun a q _ hq hresumes => ?_
  exact (hf a q (fun m => (hresumes m).masked (hmasked m)) hq).from hresumes

theorem change {f : Machine σ → Machine σ} (hview : ∀ p, P p.view → P (f p).view)
    (hresumes : masked → ∀ p : Machine σ, p.Resumes (f p)) :
    Upholds masked P (modify f : Exec σ PUnit) := fun p _ h =>
  .ok (hview p h) fun m => hresumes m p

end Upholds

/-- Attaching and detaching can't end the process. -/
theorem run_lift_bind {r : MachineM σ α} {p p' : Machine σ} {a : α} (h : r.run p = (a, p'))
    (f : α → Exec σ β) : ((r : Exec σ α) >>= f).run p = (f a).run p' := by
  have hlift : (r : Exec σ α).run p = .ok (r.run p).1 (r.run p).2 := rfl
  rw [h] at hlift
  exact run_bind_ok hlift f

namespace Kernel

/-- A system that upholds a property whatever is asked of it, if the chain's handler is called only
when it is ready for that. -/
structure Reliable (masked : Prop) (P : View σ → Prop) (Ready : SignalNumber → View σ → Prop)
    (k : Kernel σ) : Prop where
  raise : ∀ s, Upholds masked P (k.raise s)
  call : ∀ h detailed context p, (h = .chain → Ready context.signal p.view) →
    (masked → p.Masked) → P p.view → Upheld masked P p ((k.call h detailed context).run p)
  fault : ∀ s, Upholds masked P (k.fault s)
  settle : Upholds masked P k.settle

/-- What a property has to withstand to be upheld by the system. -/
structure Withstands (masked : Prop) (P : View σ → Prop) (Ready : SignalNumber → View σ → Prop) :
    Prop where
  set : ∀ v s d, (masked → s ∉ Descriptor.codes) → d.handler ≠ .chain → P v →
    P ⟨v.dispositions.set s d, v.chain, v.host⟩
  attached : masked → ∀ v, P v → v.chain ≠ none
  attach : ∀ v altstack, v.chain = none → P v →
    P ⟨fun s => if s ∈ Descriptor.codes then .chain else v.dispositions s,
      some ⟨v.dispositions, altstack, .recording "nested" .invokePrevious false⟩, v.host⟩
  deliver : ∀ room, (withRoom room).Reliable masked P Ready → ∀ s (p : Machine σ),
    (p.dispositions s).handler = .chain → (masked → p.Masked) → (masked → s ∉ Descriptor.codes) →
    P p.view → Upheld masked P p ((runHandler (withRoom room) s (p.dispositions s)).run p)
  handle : ∀ k : Kernel σ, k.Reliable masked P Ready → ∀ context (p : Machine σ),
    Ready context.signal p.view → (masked → p.Masked) → P p.view →
    Upheld masked P p ((Chain.onSignal k context).run p)

def enter (signal : SignalNumber) (d : Disposition) (stack : List UInt64) (p : Machine σ) :
    Machine σ :=
  (p.onThread fun t =>
      { (if d.flags.nodefer then d.mask else signal :: d.mask).foldl (fun t s => t.block s) t with
        onAltstack := t.onAltstack || (d.flags.onstack && t.altstack.isSome) }).modifyEnv
    ({ · with stack := handlerFrames ++ stack })

/-- The signals that are masked while a handler runs. -/
def handlerMask (signal : SignalNumber) (d : Disposition) : List SignalNumber :=
  if d.flags.nodefer then d.mask else signal :: d.mask

def leave (before p : Machine σ) : Machine σ :=
  (p.onThread fun t =>
      { t with
        blocked := before.thread.blocked
        altstack := if before.thread.onAltstack then t.altstack else before.thread.altstack
        onAltstack := before.thread.onAltstack }).modifyEnv
    ({ · with stack := before.site.env.stack })

/-- What is in place when a handler is entered: some go back to the default then. -/
def reset (signal : SignalNumber) (d : Disposition) (p : Machine σ) : Machine σ :=
  if d.flags.resethand then p.setDisposition signal { d with handler := .default } else p

theorem runHandler_run (k : Kernel σ) (signal : SignalNumber) (d : Disposition) (p : Machine σ) :
    (runHandler k signal d).run p =
      (do
        k.settle
        k.call d.handler true ⟨signal, some ⟨signal, 0⟩, some (interrupted p.site.env)⟩
        modify (leave p)
        k.settle : Exec σ Unit).run (enter signal d p.site.env.stack (reset signal d p)) := by
  unfold runHandler reset
  rw [run_get]
  dsimp only
  by_cases h : d.flags.resethand
  · rw [if_pos h, if_pos h]
    rfl
  · rw [if_neg h, if_neg h]
    rfl

theorem mem_block {s signal : SignalNumber} {t : Thread} (h : s ∈ t.blocked) :
    s ∈ (t.block signal).blocked := by
  unfold Thread.block
  split
  · exact h
  · exact List.mem_cons_of_mem _ h

theorem mem_foldl_block {s : SignalNumber} (signals : List SignalNumber) {t : Thread}
    (h : s ∈ t.blocked) : s ∈ (signals.foldl (fun t s => t.block s) t).blocked := by
  induction signals generalizing t with
  | nil => exact h
  | cons signal signals ih => exact ih (mem_block h)

theorem mem_block_self {s : SignalNumber} (h : isCatchable s) (t : Thread) :
    s ∈ (t.block s).blocked := by
  unfold Thread.block
  split
  · next hblocked => simpa [h] using hblocked
  · exact List.mem_cons_self

theorem mem_foldl_block_self {s : SignalNumber} {signals : List SignalNumber} (hs : s ∈ signals)
    (h : isCatchable s) (t : Thread) :
    s ∈ (signals.foldl (fun t s => t.block s) t).blocked := by
  induction signals generalizing t with
  | nil => cases hs
  | cons signal signals ih =>
    rcases List.mem_cons.1 hs with rfl | hs
    · exact mem_foldl_block signals (mem_block_self h t)
    · exact ih hs _

/-- A signal is blocked in a handler if it was blocked before or is masked there. -/
theorem mem_foldl_block_iff {s : SignalNumber} (hcatchable : isCatchable s)
    (signals : List SignalNumber) (t : Thread) :
    s ∈ (signals.foldl (fun t s => t.block s) t).blocked ↔ s ∈ signals ∨ s ∈ t.blocked := by
  constructor
  · intro h
    induction signals generalizing t with
    | nil => exact .inr h
    | cons signal signals ih =>
      rcases ih (t.block signal) h with hmasked | hblocked
      · exact .inl (List.mem_cons_of_mem _ hmasked)
      · unfold Thread.block at hblocked
        split at hblocked
        · exact .inr hblocked
        · rcases List.mem_cons.1 hblocked with rfl | hbefore
          · exact .inl List.mem_cons_self
          · exact .inr hbefore
  · rintro (hmasked | hblocked)
    · exact mem_foldl_block_self hmasked hcatchable t
    · exact mem_foldl_block signals hblocked

theorem thread_enter (signal : SignalNumber) (d : Disposition) (stack : List UInt64)
    (p : Machine σ) : (enter signal d stack p).thread =
      { (handlerMask signal d).foldl (fun t s => t.block s) p.thread with
        onAltstack := p.thread.onAltstack || (d.flags.onstack && p.thread.altstack.isSome) } :=
  p.thread_onThread _

theorem blocked_foldl_discard (signals : List SignalNumber) (t : Thread) :
    (signals.foldl (fun t signal => t.discard signal) t).blocked = t.blocked := by
  induction signals generalizing t with
  | nil => rfl
  | cons signal signals ih => exact ih (t.discard signal)

theorem blocked_discardPending (signals : List SignalNumber) (p : Machine σ) :
    (p.discardPending signals).thread.blocked = p.thread.blocked := by
  unfold Machine.discardPending
  split
  · rfl
  · exact blocked_foldl_discard signals p.thread

theorem resumes_discardPending (signals : List SignalNumber) (p : Machine σ) :
    p.Resumes (p.discardPending signals) := by
  have hsite : (p.discardPending signals).site = p.site := by
    unfold Machine.discardPending
    split <;> rfl
  exact ⟨by rw [Machine.running, hsite]; rfl, blocked_discardPending signals p, by rw [hsite]⟩

theorem resumes_setDisposition (signal : SignalNumber) (d : Disposition) (p : Machine σ) :
    p.Resumes (p.setDisposition signal d) := by
  have hset : p.Resumes { p with dispositions := p.dispositions.set signal d } := ⟨rfl, rfl, rfl⟩
  unfold Machine.setDisposition
  split
  · exact hset.trans (resumes_discardPending [signal] _)
  · exact hset

theorem resumes_onThread {f : Thread → Thread} (h : ∀ t, (f t).blocked = t.blocked)
    (p : Machine σ) : p.Resumes (p.onThread f) :=
  ⟨rfl, by rw [Machine.thread_onThread, h], rfl⟩

theorem masked_enter {signal : SignalNumber} {d : Disposition} {stack : List UInt64}
    {p : Machine σ} (h : p.Masked) : (enter signal d stack p).Masked := by
  intro s hs
  rw [thread_enter]
  exact mem_foldl_block _ (h s hs)

theorem isCatchable_of_mem_codes {s : SignalNumber} (hs : s ∈ Descriptor.codes) : isCatchable s := by
  have hall : ∀ s ∈ Descriptor.codes, isCatchable s := by decide
  exact hall s hs

/-- On the way into the chain's handler, all handled signals are blocked. -/
theorem masked_enter_chain (signal : SignalNumber) (stack : List UInt64) (p : Machine σ) :
    (enter signal .chain stack p).Masked := by
  intro s hs
  rw [thread_enter]
  exact mem_foldl_block_self (List.mem_cons_of_mem signal hs) (isCatchable_of_mem_codes hs) p.thread

theorem pending_block (signal : SignalNumber) (t : Thread) :
    (t.block signal).pending = t.pending := by
  unfold Thread.block
  split <;> rfl

theorem pending_foldl_block (signals : List SignalNumber) (t : Thread) :
    (signals.foldl (fun t s => t.block s) t).pending = t.pending := by
  induction signals generalizing t with
  | nil => rfl
  | cons signal signals ih => exact (ih _).trans (pending_block signal t)

theorem pending_enter (signal : SignalNumber) (d : Disposition) (stack : List UInt64)
    (p : Machine σ) : (enter signal d stack p).thread.pending = p.thread.pending := by
  rw [thread_enter]
  exact pending_foldl_block _ p.thread

theorem resumes_leave {before p : Machine σ} (hrunning : p.running = before.running)
    (hmarks : p.site.env.marks = before.site.env.marks) : before.Resumes (leave before p) := by
  refine ⟨hrunning, ?_, hmarks⟩
  simp [leave, Machine.modifyEnv, Machine.thread, Machine.running, Machine.onThread,
    Machine.setThread]

variable {Ready : SignalNumber → View σ → Prop}

theorem runHandler_upheld {k : Kernel σ} (hk : k.Reliable masked P Ready)
    (hset : ∀ v s d, (masked → s ∉ Descriptor.codes) → d.handler ≠ .chain → P v →
      P ⟨v.dispositions.set s d, v.chain, v.host⟩)
    {signal : SignalNumber} {d : Disposition} {p : Machine σ}
    (hready : d.handler = .chain → ∀ v, P v → Ready signal v) (hmasked : masked → p.Masked)
    (hsignal : masked → signal ∉ Descriptor.codes) (hview : P p.view) :
    Upheld masked P p ((runHandler k signal d).run p) := by
  have hreset : P (reset signal d p).view ∧ p.Resumes (reset signal d p) := by
    unfold reset
    split
    · refine ⟨?_, resumes_setDisposition _ _ p⟩
      rw [Machine.view_setDisposition]
      exact hset p.view signal _ hsignal nofun hview
    · exact ⟨hview, .refl p⟩
  rw [runHandler_run]
  have hentered : masked → (enter signal d p.site.env.stack (reset signal d p)).Masked :=
    fun m => masked_enter (hreset.2.masked (hmasked m))
  refine (hk.settle _ hentered hreset.1).bind fun _ p₁ _ hview₁ h₁ => ?_
  have hmasked₁ : masked → p₁.Masked := fun m => (h₁ m).masked (hentered m)
  refine (hk.call _ _ _ p₁ (fun h => hready h _ hview₁) hmasked₁ hview₁).bind
    fun _ p₂ _ hview₂ h₂ => ?_
  rw [run_modify]
  have hleave : masked → p.Resumes (leave p p₂) := fun m =>
    resumes_leave (((h₁ m).trans (h₂ m)).running.trans hreset.2.running)
      (((h₁ m).trans (h₂ m)).marks.trans hreset.2.marks)
  exact (hk.settle _ (fun m => (hleave m).masked (hmasked m)) hview₂).from hleave

/-- What another handler does, apart from being called, is to exit or to try to attach a chain. -/
theorem routine_upholds (inv : Withstands masked P Ready) (r : Routine) (detailed : Bool)
    (context : FaultContext) : Upholds masked P (r.run detailed context : Exec σ Unit) := by
  intro p hmasked hview
  unfold Routine.run
  cases r.effect with
  | returns => exact .ok hview fun _ => ⟨rfl, rfl, rfl⟩
  | exits => exact .error hview
  | attaches =>
    dsimp only
    rcases Chain.attach_cases (.recording "nested" .invokePrevious false) p with
      ⟨e, hrun⟩ | ⟨hnone, altstack, p', hrun, hattached⟩
    · rw [run_lift_bind hrun]
      exact .ok hview fun _ => ⟨rfl, rfl, rfl⟩
    · rw [run_lift_bind hrun]
      refine .ok ?_ fun m => absurd hnone (inv.attached m p.view hview)
      change P p'.view
      rw [hattached]
      exact inv.attach p.view altstack hnone hview

theorem act_upheld (inv : Withstands masked P Ready) {room : Nat}
    (hk : (withRoom room).Reliable masked P Ready) {signal : SignalNumber} {p : Machine σ}
    (hmasked : masked → p.Masked) (hsignal : masked → signal ∉ Descriptor.codes)
    (hview : P p.view) : Upheld masked P p ((act (withRoom room) signal).run p) := by
  unfold act
  rw [run_get]
  dsimp only
  cases hhandler : (p.dispositions signal).handler with
  | default =>
    dsimp only
    split
    · exact .ok hview fun _ => .refl p
    · exact .error hview
  | ignore => exact .ok hview fun _ => .refl p
  | chain => exact inv.deliver room hk signal p hhandler hmasked hsignal hview
  | other r =>
    have hother : (p.dispositions signal).handler ≠ .chain := by simp [hhandler]
    exact runHandler_upheld hk inv.set (fun h => absurd h hother) hmasked hsignal hview

/-- A signal that is not blocked is none of the handled ones, if those are. -/
theorem not_mem_codes {p : Machine σ} (hmasked : masked → p.Masked) {signal : SignalNumber}
    (h : signal ∉ p.thread.blocked) : masked → signal ∉ Descriptor.codes :=
  fun m hmem => h (hmasked m signal hmem)

theorem send_upholds (inv : Withstands masked P Ready) {room : Nat}
    (hk : (withRoom room).Reliable masked P Ready) (signal : SignalNumber) :
    Upholds masked P (send (withRoom room) signal : Exec σ Unit) := by
  intro p hmasked hview
  unfold send
  by_cases hsignal : isSignal signal
  · rw [if_neg (by simp [hsignal]), run_modify, run_get]
    have hview' : P (p.discardPending (revokes signal)).view := by
      rw [Machine.view_discardPending]
      exact hview
    have hresumes := resumes_discardPending (revokes signal) p
    have hmasked' := fun m => hresumes.masked (hmasked m)
    generalize p.discardPending (revokes signal) = q at *
    by_cases hblocked : q.thread.blocked.contains signal
    · rw [if_pos hblocked]
      refine .ok hview' fun _ => hresumes.trans (resumes_onThread (fun t => ?_) q)
      unfold Thread.queue
      split <;> rfl
    · rw [if_neg hblocked]
      have hcodes := not_mem_codes hmasked' (by simpa using hblocked)
      exact (act_upheld inv hk hmasked' hcodes hview').from fun _ => hresumes
  · rw [if_pos (by simpa using hsignal)]
    exact .ok hview fun _ => .refl p

theorem trapInto_upholds (inv : Withstands masked P Ready) {room : Nat}
    (hk : (withRoom room).Reliable masked P Ready) (signal : SignalNumber) :
    Upholds masked P (trapInto (withRoom room) signal : Exec σ Unit) := by
  intro p hmasked hview
  unfold trapInto
  rw [run_get]
  by_cases hfatal : signal ∈ p.thread.blocked ∨ (p.dispositions signal).handler = .ignore
  · rw [if_pos (by simpa using hfatal)]
    exact .error hview
  · rw [if_neg (by simpa using hfatal)]
    have hcodes := not_mem_codes hmasked fun hblocked => hfatal (.inl hblocked)
    exact act_upheld inv hk hmasked hcodes hview

theorem faultAgain_upholds (inv : Withstands masked P Ready) {room : Nat}
    (hk : (withRoom room).Reliable masked P Ready) (signal : SignalNumber) :
    Upholds masked P (faultAgain (withRoom room) signal : Exec σ Unit) :=
  (trapInto_upholds inv hk signal).bind fun _ => hk.fault signal

theorem mem_of_next? {t : Thread} {signal : SignalNumber} (h : t.next? = some signal) :
    signal ∈ t.pending ∧ signal ∉ t.blocked := by
  unfold Thread.next? at h
  have hmem := List.min?_mem h
  have hready : signal ∈ t.pending.filter fun s => !t.blocked.contains s := by
    split at hmem
    · exact hmem
    · exact (List.mem_filter.1 hmem).1
  simpa using List.mem_filter.1 hready

theorem deliverPending_upholds (inv : Withstands masked P Ready) {room : Nat}
    (hk : (withRoom room).Reliable masked P Ready) :
    Upholds masked P (deliverPending (withRoom room) : Exec σ Unit) := by
  intro p hmasked hview
  unfold deliverPending
  rw [run_get]
  cases hnext : p.thread.next? with
  | none => exact .ok hview fun _ => .refl p
  | some signal =>
    dsimp only
    rw [run_modify]
    have hresumes : p.Resumes (p.onThread (·.dequeue signal)) :=
      resumes_onThread (f := (·.dequeue signal)) (fun _ => rfl) p
    have hmasked' := fun m => hresumes.masked (hmasked m)
    have hcodes := not_mem_codes hmasked (mem_of_next? hnext).2
    refine (act_upheld inv hk hmasked' hcodes hview).bind fun _ q _ hq hacted => ?_
    refine (hk.settle q (fun m => (hacted m).masked (hmasked' m)) hq).from fun m => ?_
    exact hresumes.trans (hacted m)

/-- The system upholds what withstands the calls of handlers, however deep they are nested. -/
theorem withRoom_reliable (inv : Withstands masked P Ready) (room : Nat) :
    (withRoom room : Kernel σ).Reliable masked P Ready := by
  induction room with
  | zero =>
    exact ⟨fun _ _ _ h => .error h, fun _ _ _ _ _ _ h => .error h, fun _ _ _ h => .error h,
      fun _ _ h => .error h⟩
  | succ room ih =>
    refine ⟨send_upholds inv ih, ?_, faultAgain_upholds inv ih, deliverPending_upholds inv ih⟩
    intro h detailed context p hready hmasked hview
    cases h with
    | chain => exact inv.handle _ ih context p (hready rfl) hmasked hview
    | other r => exact routine_upholds inv r detailed context p hmasked hview
    | default => exact ih.fault .segv p hmasked hview
    | ignore => exact ih.fault .segv p hmasked hview

end Kernel

end CrashCapture
