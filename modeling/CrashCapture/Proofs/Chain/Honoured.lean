import CrashCapture.Proofs.InProcess.Exception

namespace CrashCapture

variable {σ : Type}

/-- What a disposition stands for, whatever its flags and its mask are. -/
inductive Meaning
  | default
  | nothing
  | call (handler : Handler) (detailed : Bool)

namespace Disposition

/-- The flag for details says how a handler is called, and nothing about what is none. -/
def meaning (d : Disposition) : Meaning :=
  match d.handler with
  | .default => .default
  | .ignore => .nothing
  | handler => .call handler d.flags.siginfo

/-- The signal is ignored, and the flag for details is set all the same. -/
def IgnoresDetailed (d : Disposition) : Prop := d.handler = .ignore ∧ d.flags.siginfo = true

end Disposition

def Meaning.carryOut (k : Kernel σ) (context : FaultContext) : Meaning → Exec σ Unit
  | .default => k.raise context.signal
  | .nothing => pure ()
  | .call handler detailed => k.call handler detailed context

/-- What a handler of somebody else is given of the details of a signal. -/
def Routine.given (r : Routine) (detailed : Bool) (context : FaultContext) : Arguments :=
  if !r.takesDetails then .number
  else if detailed then .details (context.info.map (·.signal)) context.hasUserContext
  else .details none false

namespace Chain

open InProcess

/-- What was remembered is done after a fault was handled, and when that is asked for. -/
inductive Way
  | handled
  | requested
deriving DecidableEq

namespace Way

def run (k : Kernel σ) (context : FaultContext) : Way → Exec σ Unit
  | .handled => onSignal k context
  | .requested => invokePreviousHandler k context

/-- What is in place when that is done. -/
def restored (c : ChainState σ) (context : FaultContext) (p : Machine σ) : Way → Machine σ
  | .handled => captured c context p
  | .requested => restoreAll c.previous p

section

variable (c : ChainState σ) (context : FaultContext) (p : Machine σ)

theorem dispositions_restored (way : Way) (s : SignalNumber) (hs : s ∈ Descriptor.codes) :
    (way.restored c context p).dispositions s = c.previous s := by
  cases way with
  | handled =>
    exact (congrFun (congrArg View.dispositions (view_captured c context p)) s).trans (if_pos hs)
  | requested =>
    exact (congrFun (congrArg View.dispositions (view_setAll Descriptor.codes c.previous p)) s).trans
      (if_pos hs)

theorem chain_restored (way : Way) : (way.restored c context p).chain = p.chain := by
  cases way with
  | handled => exact congrArg View.chain (view_captured c context p)
  | requested => exact congrArg View.chain (view_setAll Descriptor.codes c.previous p)

end

theorem run_eq {c : ChainState σ} {context : FaultContext} {p : Machine σ} (way : Way)
    (k : Kernel σ) (attached : p.chain = some c) (handled : context.signal ∈ Descriptor.codes)
    (details : way = .handled → (p.dispositions context.signal).lostDetails = false) :
    (way.run k context).run p =
      (invokePrevious k (c.previous context.signal) context).run (way.restored c context p) := by
  cases way with
  | handled =>
    have hrun := onSignal_attached k attached (details rfl)
    rw [previousFor?_handled c handled] at hrun
    exact hrun
  | requested => exact invokePreviousHandler_run k attached handled

end Way

theorem invokePrevious_meaning (k : Kernel σ) {d : Disposition} (h : ¬d.IgnoresDetailed)
    (context : FaultContext) : invokePrevious k d context = d.meaning.carryOut k context := by
  unfold invokePrevious Disposition.meaning
  cases hhandler : d.handler with
  | default => rfl
  | ignore =>
    have hplain : ¬d.flags.siginfo = true := fun hinfo => h ⟨hhandler, hinfo⟩
    rw [if_neg (by decide), if_neg hplain, if_neg (not_not_intro rfl)]
    rfl
  | chain | other r =>
    rw [if_neg nofun]
    cases d.flags.siginfo with
    | true => rfl
    | false => rfl

theorem invokePrevious_ignoresDetailed (k : Kernel σ) {d : Disposition} (h : d.IgnoresDetailed)
    (context : FaultContext) : invokePrevious k d context = k.call .ignore true context := by
  unfold invokePrevious
  rw [h.1, if_neg (by decide), if_pos h.2]

/-- In a system in which any call ends the process, it is seen that there is one. -/
theorem invokePrevious_meaning_iff (d : Disposition) (context : FaultContext) (q : Machine σ) :
    (∀ k : Kernel σ, (invokePrevious k d context).run q = (d.meaning.carryOut k context).run q) ↔
      ¬d.IgnoresDetailed := by
  constructor
  · intro hall h
    have hcalled := hall (.withRoom 0)
    have hnothing : d.meaning = .nothing := by
      unfold Disposition.meaning
      rw [h.1]
    rw [invokePrevious_ignoresDetailed _ h, hnothing] at hcalled
    cases hcalled
  · intro h k
    rw [invokePrevious_meaning k h]

theorem routine_called {c : ChainState σ} {q : Machine σ} (attached : q.chain = some c) (r : Routine)
    (detailed : Bool) (context : FaultContext) :
    ∃ call, (r.run detailed context).run q =
        (if r.effect = .exits then .error (.exited (100 + context.signal)) (recorded call q)
          else .ok () (recorded call q)) ∧
      (r.effect ≠ .attaches → call = .signalHandler r.name context.signal (r.given detailed context)
        q.site.env.marks.inHandler (q.dispositions context.signal).handler.name) := by
  unfold Routine.run
  cases heffect : r.effect with
  | returns => exact ⟨_, rfl, fun _ => rfl⟩
  | exits => exact ⟨_, rfl, fun _ => rfl⟩
  | attaches =>
    dsimp only
    rw [run_lift_bind (attach_refused _ attached)]
    exact ⟨_, rfl, fun h => absurd rfl h⟩

/-- What comes of a disposition that was remembered. The default action is taken at once, or once the
signal is no longer blocked; a handler of somebody else is called once. -/
structure Comes (d : Disposition) (context : FaultContext) (room : Nat) (q : Machine σ)
    (result : EStateM.Result Ending (Machine σ) Unit) : Prop where
  default : d.handler = .default → result =
    if context.signal ∈ q.thread.blocked then .ok () (q.onThread (·.queue context.signal))
    else .error (.killed context.signal) q
  ignored : d.handler = .ignore → d.flags.siginfo = false → result = .ok () q
  own : d.handler = .chain → result = (onSignal (.withRoom room) context).run q
  other : ∀ r, d.handler = .other r → ∃ call,
    result = (if r.effect = .exits then .error (.exited (100 + context.signal)) (recorded call q)
      else .ok () (recorded call q)) ∧
    (r.effect ≠ .attaches → call = .signalHandler r.name context.signal
      (r.given d.flags.siginfo context) q.site.env.marks.inHandler (.other r.name))
  faults : d.IgnoresDetailed → result = ((Kernel.withRoom room).fault .segv).run q

theorem invokePrevious_comes {c : ChainState σ} {q : Machine σ} {context : FaultContext}
    {d : Disposition} (attached : q.chain = some c) (handled : context.signal ∈ Descriptor.codes)
    (restored : q.dispositions context.signal = d) (room : Nat) :
    Comes d context room q ((invokePrevious (.withRoom (room + 1)) d context).run q) := by
  refine ⟨fun hdefault => ?_, fun hignore hplain => ?_, fun hown => ?_, fun r hother => ?_,
    fun hbogus => ?_⟩
  · rw [invokePrevious_default _ hdefault]
    refine (Kernel.send_run (.withRoom room) handled q).trans ?_
    by_cases hblocked : context.signal ∈ q.thread.blocked
    · rw [if_pos hblocked, if_pos hblocked]
    · rw [if_neg hblocked, if_neg hblocked]
      exact Kernel.act_default _ handled (restored ▸ hdefault)
  · have hnot : ¬d.IgnoresDetailed := fun h => absurd (hplain.symm.trans h.2) nofun
    have hnothing : d.meaning = .nothing := by
      unfold Disposition.meaning
      rw [hignore]
    rw [invokePrevious_meaning _ hnot, hnothing]
    rfl
  · have hnot : ¬d.IgnoresDetailed := fun h => absurd (hown.symm.trans h.1) nofun
    have hcall : d.meaning = .call .chain d.flags.siginfo := by
      unfold Disposition.meaning
      rw [hown]
    rw [invokePrevious_meaning _ hnot, hcall]
    rfl
  · have hnot : ¬d.IgnoresDetailed := fun h => absurd (hother.symm.trans h.1) nofun
    have hcall : d.meaning = .call (.other r) d.flags.siginfo := by
      unfold Disposition.meaning
      rw [hother]
    have hname : (q.dispositions context.signal).handler.name = .other r.name := by
      rw [restored, hother]
      rfl
    rw [invokePrevious_meaning _ hnot, hcall, ← hname]
    exact routine_called attached r d.flags.siginfo context
  · rw [invokePrevious_ignore room hbogus.2 hbogus.1]

/-- The attached handler goes on with the thread that it was called on. -/
def Stays (handler : FaultHandler σ) : Prop :=
  ∀ context s, ((handler context).run s).2.env.thread = s.env.thread

theorem running_captured {c : ChainState σ} (stays : Stays c.handler) (context : FaultContext)
    (p : Machine σ) : (captured c context p).running = p.running := by
  unfold captured closed
  change (restoreAll c.previous (told c context (opened p))).site.env.thread = _
  rw [restoreAll, site_setAll]
  exact stays context (opened p).site

theorem delivered_default {c : ChainState σ} {signal : SignalNumber} {p : Machine σ}
    (stays : Stays c.handler) (handled : signal ∈ Descriptor.codes)
    (unblocked : signal ∉ p.thread.blocked) (settled : p.thread.next? = none)
    (hdefault : (c.previous signal).handler = .default) (room : Nat) :
    ∃ r, (afterCapture (room + 1)
      (invokePrevious (.withRoom (room + 1)) (c.previous signal) (contextOf signal p)) p).run
        (captured c (contextOf signal p) (entered signal p)) = .error (.killed signal) r := by
  have hpending := eases_captured (running_captured stays (contextOf signal p) (entered signal p))
  have hrestored : (captured c (contextOf signal p) (entered signal p)).dispositions signal =
      c.previous signal := Way.dispositions_restored c _ _ .handled signal handled
  rw [invokePrevious_default _ hdefault]
  exact afterCapture_killed room settled unblocked handled
    (List.Subset.trans hpending.pending (pending_entered signal p)) (hrestored ▸ hdefault)

/-- What was remembered is done as it was meant, in whatever system, if and only if it does not ignore
the signal with the flag for details: that is called, and the thread faults. Otherwise the default
action is taken, or nothing is done, or one handler is called once, with the details if it has the flag
for them. -/
theorem remembered_honoured_iff {c : ChainState σ} {p : Machine σ} (attached : p.chain = some c)
    {signal : SignalNumber} (handled : signal ∈ Descriptor.codes) :
    let d := c.previous signal
    (∀ (way : Way) (context : FaultContext), context.signal = signal →
      (way = .handled → (p.dispositions signal).lostDetails = false) →
      let q := way.restored c context p
      (∀ s ∈ Descriptor.codes, q.dispositions s = c.previous s) ∧
      ((∀ k : Kernel σ, (way.run k context).run p = (d.meaning.carryOut k context).run q) ↔
        ¬d.IgnoresDetailed) ∧
      (d.IgnoresDetailed → ∀ k : Kernel σ,
        (way.run k context).run p = (k.call .ignore true context).run q) ∧
      ∀ room, Comes d context room q ((way.run (.withRoom (room + 1)) context).run p)) ∧
    ∀ (delivery : Delivery) (room : Nat), (p.dispositions signal).handler = .chain →
      (p.dispositions signal).flags.siginfo = true → signal ∉ p.thread.blocked →
      p.thread.next? = none →
      let q := captured c (contextOf signal p) (entered signal p)
      let delivered := (delivery.run (.withRoom (room + 2)) signal).run p
      (∃ action : Exec σ Unit, Comes d (contextOf signal p) room q (action.run q) ∧
        delivered = (afterCapture (room + 1) action p).run q) ∧
      (Stays c.handler →
        (d.handler = .default → ∃ r, delivered = .error (.killed signal) r) ∧
        (d.IgnoresDetailed → .segv ∈ (p.dispositions signal).mask →
          ∃ r, delivered = .error (.killed .segv) r)) := by
  intro d
  refine ⟨fun way context hsignal details => ?_,
    fun delivery room own hinfo unblocked settled => ?_⟩
  · subst hsignal
    intro q
    have hrun (k : Kernel σ) : (way.run k context).run p =
        (invokePrevious k d context).run q := way.run_eq k attached handled details
    have hrestored := Way.dispositions_restored c context p way
    refine ⟨hrestored, ?_, fun hignores k => ?_, fun room => ?_⟩
    · simp only [hrun]
      exact invokePrevious_meaning_iff d context q
    · rw [hrun, invokePrevious_ignoresDetailed k hignores]
    · rw [hrun]
      exact invokePrevious_comes ((Way.chain_restored c context p way).trans attached) handled
        (hrestored _ handled) room
  · intro q delivered
    have hdelivered : delivered = _ := delivery_run_attached attached handled own
      (lostDetails_entered hinfo) unblocked settled delivery room
    have hchain : q.chain = some c := (Way.chain_restored c (contextOf signal p)
      (entered signal p) .handled).trans ((chain_entered signal p).trans attached)
    have hrestored : q.dispositions signal = d :=
      Way.dispositions_restored c _ _ .handled signal handled
    refine ⟨⟨_, invokePrevious_comes hchain handled hrestored room, hdelivered⟩,
      fun stays => ⟨fun hdefault => ?_, fun hignores hmask => ?_⟩⟩
    · rw [hdelivered]
      exact delivered_default stays handled unblocked settled hdefault room
    · have heases : (entered signal p).Eases q := eases_captured (running_captured stays _ _)
      have hblocked : SignalNumber.segv ∈ q.thread.blocked := by
        rw [heases.blocked]
        exact blocked_entered hmask (by decide)
      rw [invokePrevious_ignore room hignores.2 hignores.1] at hdelivered
      exact ⟨q, hdelivered.trans (run_bind_error (fault_blocked room hblocked) _)⟩

/-- A process with all kinds of dispositions, before and after a chain is attached to it. -/
def unchained : Machine Unit :=
  { Machine.initial () (.fresh ⟨[], []⟩) none ⟨0, 0⟩ with dispositions := varied }

def chained : Machine Unit := (Move.attach fun _ => pure .invokePrevious).run unchained

/-- The handler of a trap is called, an abort takes the default action, and an illegal instruction that
was to be ignored kills the process with another signal. -/
theorem remembered_honoured_iff_varied :
    ∃ c, chained.chain = some c ∧ c.previous = varied ∧
      (∃ call, (invokePreviousHandler (.withRoom 1) (.synthetic .trap)).run chained =
        .ok () (recorded call (restoreAll c.previous chained))) ∧
      (∃ r, (Delivery.sent.run (.withRoom 2) .abrt).run chained = .error (.killed .abrt) r) ∧
      ∃ r, (Delivery.sent.run (.withRoom 2) .ill).run chained = .error (.killed .segv) r := by
  have hsome : chained.chain.isSome = true := rfl
  obtain ⟨c, hc⟩ := Option.isSome_iff_exists.1 hsome
  have hprevious : c.previous = varied ∧ Stays c.handler := by
    rcases run_attach (fun _ => pure .invokePrevious) unchained with
      ⟨-, hsame⟩ | ⟨-, -, altstack, hchain⟩
    · exact absurd (hc.symm.trans (congrArg Machine.chain hsame)) nofun
    · obtain rfl := Option.some.inj (hchain.symm.trans hc)
      exact ⟨rfl, fun _ _ => rfl⟩
  obtain ⟨hvaried, stays⟩ := hprevious
  obtain ⟨htrap, -⟩ := remembered_honoured_iff hc (show SignalNumber.trap ∈ _ by decide)
  obtain ⟨-, habrt⟩ := remembered_honoured_iff hc (show SignalNumber.abrt ∈ _ by decide)
  obtain ⟨-, hill⟩ := remembered_honoured_iff hc (show SignalNumber.ill ∈ _ by decide)
  obtain ⟨-, -, -, hcomes⟩ := htrap .requested (.synthetic .trap) rfl nofun
  obtain ⟨call, hcalled, -⟩ := (hcomes 0).other ⟨"older", true, .returns⟩ (by rw [hvaried]; rfl)
  have hkilled := ((habrt .sent 0 rfl rfl (by decide +kernel) rfl).2 stays).1 (by rw [hvaried]; rfl)
  have hfaults := ((hill .sent 0 rfl rfl (by decide +kernel) rfl).2 stays).2
    (by rw [hvaried]; exact ⟨rfl, rfl⟩) (by decide +kernel)
  exact ⟨c, hc, hvaried, ⟨call, hcalled⟩, hkilled, hfaults⟩

end Chain

end CrashCapture
