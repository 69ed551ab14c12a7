import CrashCapture.Proofs.Chain.Once
import CrashCapture.Proofs.Chain.Remembered
import CrashCapture.Proofs.Host.Likewise
import CrashCapture.Proofs.Signal.Pending

namespace CrashCapture.InProcess

open Chain

variable {σ : Type}

/-- The chain of a backend is attached, and a signal for which its handler is in place is delivered
at once. -/
structure Armed [Host σ] (c : ChainState σ) (signal : SignalNumber) (p : Machine σ) : Prop where
  attached : p.chain = some c
  handler : c.handler = faultHandler
  handled : signal ∈ Descriptor.codes
  own : (p.dispositions signal).handler = .chain
  details : (p.dispositions signal).flags.siginfo = true
  unblocked : signal ∉ p.thread.blocked
  settled : p.thread.next? = none

/-- Two processes that agree in all that is not a matter of the running thread. -/
structure Agree (R : σ → σ → Prop) (q₁ q₂ : Machine σ) : Prop where
  host : R q₁.site.host q₂.site.host
  env : q₁.site.env.bare = q₂.site.env.bare
  dispositions : q₁.dispositions = q₂.dispositions
  chain : q₁.chain = q₂.chain

/-- Both go on, or both end in the same way. -/
inductive EndAlike (P Q : Machine σ → Machine σ → Prop) :
    EStateM.Result Ending (Machine σ) Unit → EStateM.Result Ending (Machine σ) Unit → Prop
  | ok {q₁ q₂ : Machine σ} (h : P q₁ q₂) : EndAlike P Q (.ok () q₁) (.ok () q₂)
  | error {q₁ q₂ : Machine σ} (e : Ending) (h : Q q₁ q₂) : EndAlike P Q (.error e q₁) (.error e q₂)

def entered (signal : SignalNumber) (p : Machine σ) : Machine σ :=
  Kernel.enter signal (p.dispositions signal) p.site.env.stack
    (Kernel.reset signal (p.dispositions signal) p)

theorem eases_reset (signal : SignalNumber) (d : Disposition) (p : Machine σ) :
    p.Eases (Kernel.reset signal d p) := by
  unfold Kernel.reset
  split
  · exact Machine.eases_setDisposition _ _ p
  · exact .refl p

theorem site_entered (signal : SignalNumber) (p : Machine σ) :
    (entered signal p).site =
      ⟨p.site.host, { p.site.env with stack := Kernel.handlerFrames ++ p.site.env.stack }⟩ := by
  have hreset : (Kernel.reset signal (p.dispositions signal) p).site = p.site := by
    unfold Kernel.reset
    split
    · exact p.site_setDisposition _ _
    · rfl
  change Site.mk (Kernel.reset signal (p.dispositions signal) p).site.host
    { (Kernel.reset signal (p.dispositions signal) p).site.env with
      stack := Kernel.handlerFrames ++ p.site.env.stack } = _
  rw [hreset]

theorem dispositions_entered {signal s : SignalNumber} (h : s ≠ signal) (p : Machine σ) :
    (entered signal p).dispositions s = p.dispositions s := by
  change (Kernel.reset signal (p.dispositions signal) p).dispositions s = _
  unfold Kernel.reset
  split
  · exact setDisposition_of_ne h _ p
  · rfl

theorem chain_entered (signal : SignalNumber) (p : Machine σ) :
    (entered signal p).chain = p.chain := by
  change (Kernel.reset signal (p.dispositions signal) p).chain = _
  unfold Kernel.reset
  split
  · exact setDisposition_chain _ _ p
  · rfl

theorem pending_entered (signal : SignalNumber) (p : Machine σ) :
    (entered signal p).thread.pending ⊆ p.thread.pending := by
  unfold entered
  rw [Kernel.pending_enter]
  exact (eases_reset _ _ p).pending

theorem dispositions_entered_self (signal : SignalNumber) (p : Machine σ) :
    (entered signal p).dispositions signal =
      if (p.dispositions signal).flags.resethand then
        { p.dispositions signal with handler := .default }
      else p.dispositions signal := by
  change (Kernel.reset signal (p.dispositions signal) p).dispositions signal = _
  unfold Kernel.reset
  split
  · exact setDisposition_self _ _ p
  · rfl

theorem lostDetails_entered {signal : SignalNumber} {p : Machine σ}
    (h : (p.dispositions signal).flags.siginfo = true) :
    ((entered signal p).dispositions signal).lostDetails = false := by
  rw [dispositions_entered_self]
  split
  · rfl
  · simp [Disposition.lostDetails, h]

/-- A signal for which the chain's handler is in place is given to it, and then the handler is left. -/
theorem delivery_run {signal : SignalNumber} {p : Machine σ} (handled : signal ∈ Descriptor.codes)
    (own : (p.dispositions signal).handler = .chain) (unblocked : signal ∉ p.thread.blocked)
    (settled : p.thread.next? = none) (delivery : Delivery) (room : Nat) :
    (delivery.run (.withRoom (room + 2)) signal).run p =
      (afterCapture (room + 1) (onSignal (.withRoom (room + 1)) (contextOf signal p)) p).run
        (entered signal p) := by
  have hact : (Kernel.act (.withRoom (room + 2)) signal).run p =
      (Kernel.runHandler (.withRoom (room + 2)) signal (p.dispositions signal)).run p := by
    unfold Kernel.act
    rw [run_get]
    dsimp only
    rw [own]
  have hsettled : (Kernel.withRoom (room + 2)).settle.run (entered signal p) =
      .ok () (entered signal p) :=
    Kernel.settle_idle (room + 1) (Kernel.next?_enter ((eases_reset _ _ p).next? settled))
  rw [delivery.run_eq_act _ handled unblocked own, hact, Kernel.runHandler_run, own]
  change (do
    (Kernel.withRoom (room + 2)).settle
    onSignal (.withRoom (room + 1)) (contextOf signal p)
    modify (Kernel.leave p)
    (Kernel.withRoom (room + 2)).settle : Exec σ Unit).run (entered signal p) = _
  exact run_bind_ok hsettled _

/-- The chain's handler is told of the fault, and then what was remembered is done. -/
theorem delivery_run_attached {c : ChainState σ} {signal : SignalNumber} {p : Machine σ}
    (attached : p.chain = some c) (handled : signal ∈ Descriptor.codes)
    (own : (p.dispositions signal).handler = .chain)
    (details : ((entered signal p).dispositions signal).lostDetails = false)
    (unblocked : signal ∉ p.thread.blocked) (settled : p.thread.next? = none) (delivery : Delivery)
    (room : Nat) :
    (delivery.run (.withRoom (room + 2)) signal).run p =
      (afterCapture (room + 1)
        (invokePrevious (.withRoom (room + 1)) (c.previous signal) (contextOf signal p)) p).run
        (captured c (contextOf signal p) (entered signal p)) := by
  have hprevious : ChainState.previousFor? c (contextOf signal p).signal =
      some (c.previous signal) := previousFor?_handled c handled
  have hhandled : (onSignal (.withRoom (room + 1)) (contextOf signal p)).run (entered signal p) = _ :=
    onSignal_attached _ ((chain_entered signal p).trans attached) details
  rw [hprevious] at hhandled
  rw [delivery_run handled own unblocked settled]
  exact run_bind_congr hhandled _

variable [Host σ] {c : ChainState σ} {signal : SignalNumber} {p : Machine σ}

theorem delivered_run (armed : Armed c signal p) (delivery : Delivery) (room : Nat) :
    (delivery.run (.withRoom (room + 2)) signal).run p =
      (afterCapture (room + 1)
        (invokePrevious (.withRoom (room + 1)) (c.previous signal) (contextOf signal p)) p).run
        (captured c (contextOf signal p) (entered signal p)) :=
  delivery_run_attached armed.attached armed.handled armed.own (lostDetails_entered armed.details)
    armed.unblocked armed.settled delivery room

/-- What is captured in the call of a backend. -/
def hooked (context : FaultContext) (p : Machine σ) : Machine σ :=
  { p with site := ((captureInFault context).run p.site).2 }

theorem called_run (armed : Armed c signal p) {context : FaultContext}
    (hsignal : context.signal = signal) (k : Kernel σ) {b : InProcess}
    (hstarted : b.started = true) :
    (handleException k context b).run p =
      (invokePrevious k (c.previous signal) context).run
        (restoreAll c.previous (hooked context p)) := by
  have hhooked : (liftM (captureInFault (σ := σ) context) : Exec σ Unit).run p =
      .ok () (hooked context p) := rfl
  unfold handleException
  rw [if_pos hstarted, run_bind_ok hhooked, ← hsignal]
  exact invokePreviousHandler_run k armed.attached (hsignal ▸ armed.handled)

/-- Both processes after the capture, the first one still in the handler of the signal. -/
structure Parallel (R : σ → σ → Prop) (c : ChainState σ) (p q₁ q₂ : Machine σ) : Prop where
  site : q₁.site.Alike R p.site.env q₂.site
  dispositions : q₁.dispositions = q₂.dispositions
  above : q₁.chain = some c
  below : q₂.chain = some c
  pending : q₁.thread.pending ⊆ p.thread.pending

variable {R : σ → σ → Prop} {q₁ q₂ : Machine σ}

omit [Host σ] in
theorem Parallel.agree (h : Parallel R c p q₁ q₂) : Agree R q₁ q₂ :=
  ⟨h.site.host, h.site.env, h.dispositions, h.above.trans h.below.symm⟩

theorem captureInFault_likewise {interrupted : Environment} (steady : Host.Steady R interrupted)
    {c₁ c₂ : FaultContext} (hsignal : c₁.signal = c₂.signal)
    (hwalk : Likewise R interrupted Eq (walk (σ := σ) c₁) (walk c₂)) :
    Likewise R interrupted Eq (captureInFault (σ := σ) c₁) (captureInFault c₂) :=
  (Likewise.run Run.unstacked_enterFault).bindEq fun _ =>
    (capture_likewise steady hsignal hwalk).bindEq fun _ => Likewise.run Run.unstacked_leaveFault

theorem site_captured (hhandler : c.handler = faultHandler) (context : FaultContext)
    (p : Machine σ) :
    (captured c context p).site = ((captureInFault context).run p.site).2 := by
  unfold captured closed Machine.modifyEnv
  rw [restoreAll, site_setAll]
  unfold told
  rw [hhandler]
  rfl

omit [Host σ] in
/-- The capture itself makes nothing pending, if it leaves the thread alone. -/
theorem eases_captured {context : FaultContext} {p : Machine σ}
    (hrunning : (captured c context p).running = p.running) : p.Eases (captured c context p) := by
  have hrestored := Machine.eases_setAll Descriptor.codes c.previous (told c context (opened p))
  have htold : p.Eases (told c context (opened p)) :=
    Machine.eases_site (hrestored.running.symm.trans hrunning)
  have heases := htold.trans hrestored
  exact ⟨hrunning, heases.blocked, heases.pending⟩

theorem eases_hooked {context : FaultContext} {p : Machine σ} {previous : Dispositions}
    (hrunning : (restoreAll previous (hooked context p)).running = p.running) :
    p.Eases (restoreAll previous (hooked context p)) := by
  have hrestored := Machine.eases_setAll Descriptor.codes previous (hooked context p)
  have hhooked : p.Eases (hooked context p) :=
    Machine.eases_site (hrestored.running.symm.trans hrunning)
  exact hhooked.trans hrestored

theorem captured_parallel (armed : Armed c signal p) (same : R p.site.host p.site.host)
    (steady : Host.Steady R p.site.env) {context : FaultContext} (hsignal : context.signal = signal)
    (frames : Likewise R p.site.env Eq (walk (contextOf signal p)) (walk context)) :
    Parallel R c p (captured c (contextOf signal p) (entered signal p))
      (restoreAll c.previous (hooked context p)) := by
  have hentered : (entered signal p).site.Alike R p.site.env p.site := by
    rw [site_entered]
    exact ⟨same, rfl, rfl, rfl, rfl⟩
  have hsite : (captured c (contextOf signal p) (entered signal p)).site.Alike R p.site.env
      (restoreAll c.previous (hooked context p)).site := by
    rw [site_captured armed.handler, restoreAll, site_setAll]
    exact (captureInFault_likewise steady hsignal.symm frames _ _ hentered).2
  obtain ⟨hdisp₁, hchain₁, -⟩ :=
    View.mk.inj (view_captured c (contextOf signal p) (entered signal p))
  obtain ⟨hdisp₂, hchain₂, -⟩ :=
    View.mk.inj (view_setAll Descriptor.codes c.previous (hooked context p))
  refine ⟨hsite, ?_, ?_, ?_, ?_⟩
  · rw [hdisp₁, restoreAll, hdisp₂]
    funext s
    by_cases hs : s ∈ Descriptor.codes
    · rw [if_pos hs, if_pos hs]
    · have hne : s ≠ signal := fun heq => hs (heq ▸ armed.handled)
      rw [if_neg hs, if_neg hs]
      exact dispositions_entered hne p
  · exact hchain₁.trans ((chain_entered signal p).trans armed.attached)
  · exact hchain₂.trans armed.attached
  · have hrunning : (captured c (contextOf signal p) (entered signal p)).running =
        (entered signal p).running := by
      rw [Machine.running, hsite.above_thread, Machine.running, site_entered]
    exact List.Subset.trans (eases_captured hrunning).pending (pending_entered signal p)

def recorded (call : Call) (q : Machine σ) : Machine σ := q.modifyEnv (·.record call)

section

omit [Host σ]

theorem Parallel.recorded (h : Parallel R c p q₁ q₂) {call₁ call₂ : Call}
    (hcall : call₁.bare = call₂.bare) :
    Parallel R c p (recorded call₁ q₁) (recorded call₂ q₂) := by
  refine ⟨⟨h.site.host, ?_, h.site.above, h.site.below, h.site.thread⟩, h.dispositions, h.above,
    h.below, h.pending⟩
  change (q₁.site.env.record call₁).bare = (q₂.site.env.record call₂).bare
  rw [Environment.bare_record, Environment.bare_record, hcall, h.site.env]

theorem Parallel.setDisposition (h : Parallel R c p q₁ q₂) (s : SignalNumber) (d : Disposition) :
    Parallel R c p (q₁.setDisposition s d) (q₂.setDisposition s d) := by
  obtain ⟨hdisp₁, hchain₁, -⟩ := View.mk.inj (q₁.view_setDisposition s d)
  obtain ⟨hdisp₂, hchain₂, -⟩ := View.mk.inj (q₂.view_setDisposition s d)
  refine ⟨?_, ?_, hchain₁.trans h.above, hchain₂.trans h.below, ?_⟩
  · rw [Machine.site_setDisposition, Machine.site_setDisposition]
    exact h.site
  · rw [hdisp₁, hdisp₂, h.dispositions]
  · exact List.Subset.trans (Machine.eases_setDisposition s d q₁).pending h.pending

theorem attach_refused (handler : FaultHandler σ) (hc : p.chain = some c) :
    (attach handler).run p = (.error .handlerAlreadyInstalled, p) := by
  unfold attach
  rw [stateM_run_get, if_pos (by simp [isAttached, hc])]
  rfl

/-- A handler of somebody else is called with the same arguments but for the details, and finds the
same in place. -/
theorem routine_parallel (h : Parallel R c p q₁ q₂) (r : Routine) (detailed : Bool)
    {c₁ c₂ : FaultContext} (hsignal : c₁.signal = c₂.signal) :
    EndAlike (Parallel R c p) (Agree R) ((r.run detailed c₁).run q₁)
      ((r.run detailed c₂).run q₂) := by
  obtain ⟨signal, info₁, instruction₁⟩ := c₁
  obtain ⟨_, info₂, instruction₂⟩ := c₂
  cases hsignal
  let arguments (context : FaultContext) : Arguments :=
    if !r.takesDetails then .number
    else if detailed then .details (context.info.map (·.signal)) context.hasUserContext
    else .details none false
  have harguments (c₁ c₂ : FaultContext) : (arguments c₁).bare = (arguments c₂).bare := by
    unfold arguments
    split
    · rfl
    · split
      · rfl
      · rfl
  let call (context : FaultContext) (q : Machine σ) : Call :=
    .signalHandler r.name context.signal (arguments context) q.site.env.marks.inHandler
      (q.dispositions context.signal).handler.name
  have hmarks : q₁.site.env.marks = q₂.site.env.marks :=
    congrArg (fun env => env.marks) h.site.env
  have hcall : (call ⟨signal, info₁, instruction₁⟩ q₁).bare =
      (call ⟨signal, info₂, instruction₂⟩ q₂).bare := by
    change Call.signalHandler _ _ _ _ _ = Call.signalHandler _ _ _ _ _
    rw [harguments _ ⟨signal, info₂, instruction₂⟩, hmarks, h.dispositions]
  unfold Routine.run
  cases r.effect with
  | returns => exact .ok (h.recorded hcall)
  | exits => exact .error _ (h.recorded hcall).agree
  | attaches =>
    dsimp only
    rw [run_lift_bind (attach_refused _ h.above), run_lift_bind (attach_refused _ h.below)]
    exact .ok (h.recorded rfl)

/-- Whether there is a way to do what was remembered. Without the flag for details, ignoring a
signal and the chain's own handler are told from the address of some code. -/
def Invocable (d : Disposition) : Prop :=
  ¬(d.flags.siginfo = true ∧ (d.handler = .ignore ∨ d.handler = .chain))

theorem invokePrevious_parallel (h : Parallel R c p q₁ q₂) {d : Disposition} (hd : Invocable d)
    (hdefault : d.handler ≠ .default) {c₁ c₂ : FaultContext} (hsignal : c₁.signal = c₂.signal)
    (hrestored : q₁.dispositions c₁.signal = d) (room room' : Nat) :
    EndAlike (Parallel R c p) (Agree R)
      ((invokePrevious (.withRoom (room + 1)) d c₁).run q₁)
      ((invokePrevious (.withRoom (room' + 1)) d c₂).run q₂) := by
  unfold invokePrevious
  rw [if_neg hdefault, if_neg hdefault]
  cases hhandler : d.handler with
  | default => exact absurd hhandler hdefault
  | ignore =>
    have hplain : ¬d.flags.siginfo = true := fun hinfo => hd ⟨hinfo, .inl hhandler⟩
    rw [if_neg hplain, if_neg hplain, if_neg (not_not_intro rfl), if_neg (not_not_intro rfl)]
    exact .ok h
  | chain =>
    have hplain : ¬d.flags.siginfo = true := fun hinfo => hd ⟨hinfo, .inr hhandler⟩
    have hlost : d.lostDetails = true := by
      simp [Disposition.lostDetails, hhandler, hplain]
    rw [if_neg hplain, if_neg hplain, if_pos (by decide), if_pos (by decide)]
    change EndAlike _ _ ((onSignal (.withRoom room) c₁).run q₁)
      ((onSignal (.withRoom room') c₂).run q₂)
    have hrestored₂ : q₂.dispositions c₂.signal = d := by
      rw [← h.dispositions, ← hsignal, hrestored]
    rw [onSignal_lost _ (hrestored ▸ hlost), onSignal_lost _ (hrestored₂ ▸ hlost), hsignal]
    exact .ok (h.setDisposition _ _)
  | other r =>
    split
    · exact routine_parallel h r true hsignal
    · rw [if_pos (by simp), if_pos (by simp)]
      exact routine_parallel h r false hsignal

theorem thread_leave (p q : Machine σ) :
    (Kernel.leave p q).thread.blocked = p.thread.blocked ∧
      (Kernel.leave p q).thread.pending = q.thread.pending := by
  constructor <;>
    simp [Kernel.leave, Machine.modifyEnv, Machine.thread, Machine.running, Machine.onThread,
      Machine.setThread]

theorem leave_agree (h : Agree R q₁ q₂) : Agree R (Kernel.leave p q₁) q₂ :=
  ⟨h.host, h.env, h.dispositions, h.chain⟩

/-- Nothing is delivered when the handler is left, as long as it has made nothing pending. -/
theorem afterCapture_alike (room : Nat) {action : Exec σ Unit} {q : Machine σ}
    {r : EStateM.Result Ending (Machine σ) Unit} (settled : p.thread.next? = none)
    (h : EndAlike (Parallel R c p) (Agree R) (action.run q) r) :
    EndAlike (Agree R) (Agree R) ((afterCapture room action p).run q) r := by
  unfold afterCapture
  generalize hrun : action.run q = r₁ at h
  cases h with
  | error e hagree =>
    rw [run_bind_error hrun]
    exact .error e hagree
  | ok hparallel =>
    rename_i q₁ q₂
    have hsettled : (Kernel.leave p q₁).thread.next? = none := by
      obtain ⟨hblocked, hpending⟩ := thread_leave p q₁
      rw [Thread.next?_eq_none_iff] at settled ⊢
      intro s hs
      rw [hpending] at hs
      rw [hblocked]
      exact settled s (hparallel.pending hs)
    rw [run_bind_ok hrun, run_modify, Kernel.settle_idle room hsettled]
    exact .ok (leave_agree hparallel.agree)

/-- The default action waits for the handler to be left if the signal is blocked in it. -/
theorem afterCapture_default (room : Nat) {q : Machine σ} (settled : p.thread.next? = none)
    (unblocked : signal ∉ p.thread.blocked) (handled : signal ∈ Descriptor.codes)
    (hpending : q.thread.pending ⊆ p.thread.pending)
    (hdefault : (q.dispositions signal).handler = .default) (hagree : Agree R q q₂) :
    ∃ r, (afterCapture (room + 1) ((Kernel.withRoom (room + 1)).raise signal) p).run q =
      .error (.killed signal) r ∧ Agree R r q₂ := by
  have hraise : ((Kernel.withRoom (room + 1)).raise signal).run q =
      if signal ∈ q.thread.blocked then .ok () (q.onThread (·.queue signal))
      else (Kernel.act (.withRoom room) signal).run q := Kernel.send_run _ handled q
  unfold afterCapture
  by_cases hblocked : signal ∈ q.thread.blocked
  · rw [if_pos hblocked] at hraise
    let left := Kernel.leave p (q.onThread (·.queue signal))
    have hqueued : left.thread.pending = (q.thread.queue signal).pending := by
      rw [(thread_leave p _).2, Machine.thread_onThread]
    have hnext : left.thread.next? = some signal := by
      have hnew : signal ∉ q.thread.pending := fun hold =>
        unblocked (Thread.next?_eq_none_iff.1 settled _ (hpending hold))
      have hcons : (q.thread.queue signal).pending = signal :: q.thread.pending := by
        simp [Thread.queue, hnew]
      rw [hcons] at hqueued
      refine Thread.next?_eq_some (by simp [hqueued]) ?_ fun s hs hs' => ?_
      · rw [(thread_leave p _).1]
        exact unblocked
      · rw [(thread_leave p _).1] at hs'
        rw [hqueued] at hs
        rcases List.mem_cons.1 hs with rfl | hs
        · rfl
        · exact absurd (Thread.next?_eq_none_iff.1 settled s (hpending hs)) hs'
    have hkilled : (Kernel.withRoom (room + 2)).settle.run left =
        .error (.killed signal) (left.onThread (·.dequeue signal)) := by
      change (Kernel.deliverPending (.withRoom (room + 1))).run left = _
      unfold Kernel.deliverPending
      have hleft : ((left.onThread (·.dequeue signal)).dispositions signal).handler = .default :=
        hdefault
      rw [run_get, hnext]
      dsimp only
      rw [run_modify]
      exact run_bind_error (Kernel.act_default _ handled hleft) _
    rw [run_bind_ok hraise, run_modify]
    exact ⟨_, hkilled, hagree.host, hagree.env, hagree.dispositions, hagree.chain⟩
  · rw [if_neg hblocked, Kernel.act_default _ handled hdefault] at hraise
    rw [run_bind_error hraise]
    exact ⟨q, rfl, hagree⟩

theorem afterCapture_killed (room : Nat) {q : Machine σ} (settled : p.thread.next? = none)
    (unblocked : signal ∉ p.thread.blocked) (handled : signal ∈ Descriptor.codes)
    (hpending : q.thread.pending ⊆ p.thread.pending)
    (hdefault : (q.dispositions signal).handler = .default) :
    ∃ r, (afterCapture (room + 1) ((Kernel.withRoom (room + 1)).raise signal) p).run q =
      .error (.killed signal) r := by
  obtain ⟨r, hkilled, -⟩ := afterCapture_default (R := fun _ _ => True) room settled unblocked handled
    hpending hdefault ⟨trivial, rfl, rfl, rfl⟩
  exact ⟨r, hkilled⟩

theorem mem_blocked_entered {s : SignalNumber} (hcatchable : isCatchable s) :
    s ∈ (entered signal p).thread.blocked ↔
      s ∈ Kernel.handlerMask signal (p.dispositions signal) ∨ s ∈ p.thread.blocked := by
  have hreset := (eases_reset signal (p.dispositions signal) p).blocked
  rw [entered, Kernel.thread_enter, ← hreset]
  exact Kernel.mem_foldl_block_iff hcatchable _ _

theorem blocked_entered {s : SignalNumber} (hs : s ∈ (p.dispositions signal).mask)
    (hcatchable : isCatchable s) : s ∈ (entered signal p).thread.blocked := by
  refine (mem_blocked_entered hcatchable).2 (.inl ?_)
  unfold Kernel.handlerMask
  split
  · exact hs
  · exact List.mem_cons_of_mem _ hs

theorem running_entered (signal : SignalNumber) (p : Machine σ) :
    (entered signal p).running = p.running := by
  rw [Machine.running, site_entered]
  rfl

/-- A thread that faults while that fault is blocked is killed. -/
theorem fault_blocked (room : Nat) {q : Machine σ} (h : SignalNumber.segv ∈ q.thread.blocked) :
    ((Kernel.withRoom room).fault .segv).run q = .error (.killed .segv) q := by
  cases room with
  | zero => rfl
  | succ room =>
    have htrapped : (Kernel.trapInto (.withRoom room) .segv).run q = .error (.killed .segv) q := by
      unfold Kernel.trapInto
      rw [run_get, if_pos (by simp [h])]
      rfl
    exact run_bind_error htrapped _

theorem invokePrevious_ignore (room : Nat) {d : Disposition} (hinfo : d.flags.siginfo = true)
    (hignore : d.handler = .ignore) (context : FaultContext) :
    invokePrevious (σ := σ) (.withRoom (room + 1)) d context =
      (Kernel.withRoom room).fault .segv := by
  unfold invokePrevious
  rw [hignore, if_neg (by decide), if_pos hinfo]
  rfl

theorem invokePrevious_default (k : Kernel σ) {d : Disposition} (hdefault : d.handler = .default)
    (context : FaultContext) : invokePrevious k d context = k.raise context.signal := by
  unfold invokePrevious
  rw [if_pos hdefault]

theorem invokePrevious_endless (room : Nat) (context : FaultContext) {q : Machine σ}
    (hc : q.chain = some c) (hcodes : context.signal ∈ Descriptor.codes)
    (hinfo : (c.previous context.signal).flags.siginfo = true)
    (hown : (c.previous context.signal).handler = .chain)
    (hrestored : q.dispositions context.signal = c.previous context.signal) :
    ∃ r, (invokePrevious (.withRoom room) (c.previous context.signal) context).run q =
      .error (.killed .segv) r := by
  rw [invokePrevious_own _ hown hinfo]
  exact call_endless room hc hcodes hown hinfo (by simp [hrestored, Disposition.lostDetails, hinfo])

end

/-- The default action ends the process: in the call at once, and in the handler of the signal when
that is left. -/
theorem killed_alike (armed : Armed c signal p) (h : Parallel R c p q₁ q₂)
    (unblocked : signal ∉ q₂.thread.blocked) {c₁ c₂ : FaultContext} (hsignal₁ : c₁.signal = signal)
    (hsignal₂ : c₂.signal = signal) {d : Disposition} (hrestored : q₁.dispositions signal = d)
    (hdefault : d.handler = .default) (room room' : Nat) :
    ∃ r, (afterCapture (room + 1) (invokePrevious (.withRoom (room + 1)) d c₁) p).run q₁ =
        .error (.killed signal) r ∧
      (invokePrevious (.withRoom (room' + 1)) d c₂).run q₂ = .error (.killed signal) q₂ ∧
      Agree R r q₂ := by
  rw [invokePrevious_default _ hdefault, invokePrevious_default _ hdefault, hsignal₁, hsignal₂]
  obtain ⟨r, hkilled, hagree⟩ := afterCapture_default room armed.settled armed.unblocked
    armed.handled h.pending (hrestored ▸ hdefault) h.agree
  have hrestored₂ : q₂.dispositions signal = d := h.dispositions ▸ hrestored
  have hraise : ((Kernel.withRoom (room' + 1)).raise signal).run q₂ =
      (Kernel.act (.withRoom room') signal).run q₂ := by
    refine (Kernel.send_run _ armed.handled q₂).trans ?_
    rw [if_neg unblocked]
  have hact := Kernel.act_default (.withRoom room') armed.handled (hrestored₂ ▸ hdefault)
  exact ⟨r, hkilled, hraise.trans hact, hagree⟩

/-- The call of a backend is as good as the delivery of the signal: the same is asked of the client,
the same is in place after that, and what was remembered is done once. That goes wrong only if what
was remembered has the flag for details without being a handler of somebody else. A signal that was
to be ignored then makes the thread fault, and what comes of that depends on where it was called. -/
theorem exception_like_delivery {R : σ → σ → Prop} {c : ChainState (Noted σ)}
    {signal : SignalNumber} {p : Machine (Noted σ)} (armed : Armed c signal p)
    (same : R p.site.host.inner p.site.host.inner) (steady : Host.Steady R p.site.env)
    {context : FaultContext} (hsignal : context.signal = signal)
    (frames : Likewise R p.site.env Eq (walk (σ := σ) (contextOf signal p)) (walk context))
    {b : InProcess} (started : b.started = true) (delivery : Delivery) (room room' : Nat) :
    let d := c.previous signal
    let delivered := (delivery.run (.withRoom (room + 2)) signal).run p
    let called := (handleException (.withRoom (room' + 1)) context b).run p
    (Invocable d → EndAlike (Agree (Noted.Same R)) (Agree (Noted.Same R)) delivered called) ∧
    (d.handler = .default → ∃ r r',
      delivered = .error (.killed signal) r ∧ called = .error (.killed signal) r') ∧
    (d.flags.siginfo = true → d.handler = .chain → ∃ r r',
      delivered = .error (.killed .segv) r ∧ called = .error (.killed .segv) r') ∧
    ∃ q₁ q₂, Agree (Noted.Same R) q₁ q₂ ∧
      (∀ s ∈ Descriptor.codes, q₁.dispositions s = c.previous s) ∧
      delivered = (afterCapture (room + 1)
        (invokePrevious (.withRoom (room + 1)) d (contextOf signal p)) p).run q₁ ∧
      called = (invokePrevious (.withRoom (room' + 1)) d context).run q₂ ∧
      (d.flags.siginfo = true → d.handler = .ignore →
        (.segv ∈ (p.dispositions signal).mask → ∃ r, delivered = .error (.killed .segv) r) ∧
        called = ((Kernel.withRoom room').fault .segv).run q₂) := by
  intro d delivered called
  have hdelivered : delivered = _ := delivered_run armed delivery room
  have hcalled : called = _ := called_run armed hsignal (.withRoom (room' + 1)) started
  have hparallel := captured_parallel armed ⟨same, rfl⟩ (Noted.steady steady) hsignal
    (Noted.walk_likewise hsignal.symm frames)
  have hview := congrArg View.dispositions
    (view_captured c (contextOf signal p) (entered signal p))
  have hrestored : ∀ s ∈ Descriptor.codes,
      (captured c (contextOf signal p) (entered signal p)).dispositions s = c.previous s :=
    fun s hs => (congrFun hview s).trans (if_pos hs)
  have heases₁ : (entered signal p).Eases (captured c (contextOf signal p) (entered signal p)) :=
    eases_captured (hparallel.site.above_thread.trans (running_entered signal p).symm)
  have heases₂ : p.Eases (restoreAll c.previous (hooked context p)) :=
    eases_hooked hparallel.site.thread
  generalize captured c (contextOf signal p) (entered signal p) = q₁ at *
  generalize restoreAll c.previous (hooked context p) = q₂ at *
  have hd : q₁.dispositions signal = d := hrestored signal armed.handled
  have hd₂ : q₂.dispositions signal = d := hparallel.dispositions ▸ hd
  have hkilled (h : d.handler = .default) : ∃ r, delivered = .error (.killed signal) r ∧
      called = .error (.killed signal) q₂ ∧ Agree (Noted.Same R) r q₂ := by
    rw [hdelivered, hcalled]
    exact killed_alike armed hparallel (heases₂.blocked ▸ armed.unblocked) rfl hsignal hd h room
      room'
  refine ⟨?alike, ?default, ?endless, q₁, q₂, hparallel.agree, hrestored, hdelivered, hcalled,
    fun hinfo hignore => ⟨?delivered, ?called⟩⟩
  case alike =>
    intro hinvocable
    by_cases h : d.handler = .default
    · obtain ⟨r, hfirst, hsecond, hagree⟩ := hkilled h
      rw [hfirst, hsecond]
      exact .error _ hagree
    · rw [hdelivered, hcalled]
      exact afterCapture_alike _ armed.settled
        (invokePrevious_parallel hparallel hinvocable h hsignal.symm hd room room')
  case default =>
    intro h
    obtain ⟨r, hfirst, hsecond, -⟩ := hkilled h
    exact ⟨r, q₂, hfirst, hsecond⟩
  case endless =>
    intro hinfo hown
    obtain ⟨r, hrun⟩ := invokePrevious_endless (room + 1) (contextOf signal p) hparallel.above
      armed.handled hinfo hown hd
    subst hsignal
    obtain ⟨r', hrun'⟩ := invokePrevious_endless (room' + 1) context hparallel.below armed.handled
      hinfo hown hd₂
    exact ⟨r, r', hdelivered.trans (run_bind_error hrun _), hcalled.trans hrun'⟩
  case delivered =>
    intro hmask
    have hblocked : SignalNumber.segv ∈ q₁.thread.blocked := by
      rw [heases₁.blocked]
      exact blocked_entered hmask (by decide)
    rw [invokePrevious_ignore room hinfo hignore] at hdelivered
    exact ⟨q₁, hdelivered.trans (run_bind_error (fault_blocked room hblocked) _)⟩
  case called => rw [hcalled, invokePrevious_ignore room' hinfo hignore]

/-- What a startup remembers is what was in place. -/
theorem chain_startup (b : InProcess) {p : Machine σ} (hnone : p.chain = none) :
    (b.startup.run p).2.chain = none ∨
      ∃ altstack, (b.startup.run p).2.chain = some ⟨p.dispositions, altstack, faultHandler⟩ := by
  obtain ⟨q, hreserved, hdisp, hchain⟩ : ∃ q, (liftM Run.reservePool : MachineM σ Unit).run p =
      ((), q) ∧ q.dispositions = p.dispositions ∧ q.chain = p.chain := ⟨_, rfl, rfl, rfl⟩
  unfold startup
  rw [stateM_run_bind hreserved]
  rcases attach_cases (faultHandler (σ := σ)) q with ⟨e, hrun⟩ | ⟨-, altstack, r, hrun, hview⟩
  · rw [stateM_run_bind hrun]
    exact .inl (hchain.trans hnone)
  · rw [stateM_run_bind hrun]
    exact .inr ⟨altstack, hdisp ▸ congrArg View.chain hview⟩

/-- What is remembered is a handler of somebody else, a signal that is ignored with the flag for
details, and a handler that exits. -/
def varied : Dispositions
  | .trap => ⟨.other ⟨"older", true, .returns⟩, Disposition.chainFlags, []⟩
  | .ill => ⟨.ignore, Disposition.chainFlags, []⟩
  | .segv => ⟨.other ⟨"last", false, .exits⟩, .none, []⟩
  | _ => .initial

def beforeStartup : Machine (Noted RecordingHost) :=
  { Machine.initial ⟨{ RecordingHost.initial .default with frames := some [1, 2] }, []⟩
      (.fresh ⟨[], []⟩) none ⟨0, 0⟩ with dispositions := varied }

def afterStartup : Machine (Noted RecordingHost) := (startup initial |>.run beforeStartup).2

theorem armed_afterStartup : ∃ altstack, ∀ signal ∈ [SignalNumber.trap, .ill],
    Armed ⟨varied, altstack, faultHandler⟩ signal afterStartup := by
  have hsome : afterStartup.chain.isSome = true := rfl
  have hplain : ∀ signal ∈ [SignalNumber.trap, .ill], signal ∈ Descriptor.codes ∧
      (afterStartup.dispositions signal).handler = .chain ∧
      (afterStartup.dispositions signal).flags.siginfo = true ∧
      signal ∉ afterStartup.thread.blocked := by
    decide +kernel
  rcases chain_startup initial (p := beforeStartup) rfl with hnone | ⟨altstack, hchain⟩
  · exact absurd hsome (by simp [afterStartup, hnone])
  · refine ⟨altstack, fun signal hsignal => ?_⟩
    obtain ⟨hhandled, hown, hdetails, hunblocked⟩ := hplain signal hsignal
    exact ⟨hchain, rfl, hhandled, hown, hdetails, hunblocked, rfl⟩

def ending? : EStateM.Result Ending (Machine σ) Unit → Option Ending
  | .ok _ _ => none
  | .error e _ => some e

/-- A trap is passed on to the handler that was there before. An illegal instruction that was to be
ignored ends the process in two different ways. -/
theorem exception_like_delivery_trap :
    let delivered signal := (Delivery.trapped.run (.withRoom 4) signal).run afterStartup
    let called signal :=
      (handleException (.withRoom 4) (.synthetic signal) ⟨true, true⟩).run afterStartup
    let alike := Agree (Noted.Same (RecordingHost.Finds [1, 2]))
    EndAlike alike alike (delivered .trap) (called .trap) ∧
      ending? (delivered .ill) = some (.killed .segv) ∧
      ending? (called .ill) = some (.exited 111) := by
  intro delivered called alike
  obtain ⟨altstack, harmed⟩ := armed_afterStartup
  have hsteady := RecordingHost.steady [1, 2] afterStartup.site.env
  have hwalk (signal : SignalNumber) :
      Likewise (RecordingHost.Finds [1, 2]) afterStartup.site.env Eq
        (walk (contextOf signal afterStartup)) (walk (.synthetic signal)) :=
    RecordingHost.walk_likewise [1, 2] _ rfl
  have hfinds : RecordingHost.Finds [1, 2] afterStartup.site.host.inner
      afterStartup.site.host.inner := ⟨rfl, rfl⟩
  obtain ⟨htrap, -⟩ := exception_like_delivery (harmed .trap (by decide)) hfinds hsteady rfl
    (hwalk .trap) (b := ⟨true, true⟩) rfl .trapped 2 3
  obtain ⟨-, -, -, q₁, q₂, -, -, -, -, hill⟩ := exception_like_delivery (harmed .ill (by decide))
    hfinds hsteady rfl (hwalk .ill) (b := ⟨true, true⟩) rfl .trapped 2 3
  obtain ⟨r, hkilled⟩ := (hill rfl rfl).1 (by decide +kernel)
  have hinvocable : Invocable (varied .trap) := by
    unfold Invocable
    decide
  have hexited : ending? (called .ill) = some (.exited 111) := by decide +kernel
  exact ⟨htrap hinvocable, congrArg ending? hkilled, hexited⟩

end CrashCapture.InProcess
