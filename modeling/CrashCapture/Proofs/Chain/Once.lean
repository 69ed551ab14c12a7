import CrashCapture.Proofs.Chain.Soundness
import CrashCapture.Proofs.Signal.Pending
import CrashCapture.Proofs.Start

namespace CrashCapture.Chain

variable {σ : Type}

/-- A fault that is captured on the way from `p`: the chain's handler is entered in `p₁`, and it is
left to what was there before in `q`. -/
structure Captures (c : ChainState (Tallied σ)) (context : FaultContext)
    (p p₁ q : Machine (Tallied σ)) : Prop where
  attached : p₁.chain = some c
  untouched : ∀ s ∈ Descriptor.codes, p₁.dispositions s = p.dispositions s
  host : p₁.site.host = p.site.host
  run : (captureFault c context).run p₁ = .ok () q
  faults : ∀ handler, c.handler = .tallied handler →
    q.site.host.faults = p.site.host.faults ++ [context.signal]
  restored : ∀ s ∈ Descriptor.codes, q.dispositions s = c.previous s
  chain : q.chain = some c
  scopes : (∀ s, ((c.handler context).run s).2.env.marks.depth = s.env.marks.depth) →
    q.site.env.marks.depth = p.site.env.marks.depth

def contextOf (signal : SignalNumber) (p : Machine σ) : FaultContext :=
  ⟨signal, some ⟨signal, 0⟩, some (Kernel.interrupted p.site.env)⟩

def afterCapture (room : Nat) (action : Exec σ Unit) (p : Machine σ) : Exec σ Unit := do
  action
  modify (Kernel.leave p)
  (Kernel.withRoom (room + 1)).settle

/-- What comes of a delivery for which the chain's handler is in place: the fault is captured,
unless the handler of some other signal that was pending ends the process before that. -/
def IsCaptured (room : Nat) (c : ChainState (Tallied σ)) (signal : SignalNumber)
    (p : Machine (Tallied σ)) (delivered : EStateM.Result Ending (Machine (Tallied σ)) Unit) :
    Prop :=
  (∃ ending p', delivered = .error ending p' ∧ p'.site.host = p.site.host ∧
    ∃ other ∈ p.thread.pending, other ∉ Descriptor.codes) ∨
  ∃ p₁ q action, Captures c (contextOf signal p) p p₁ q ∧
    IsRemembered (.withRoom room) (c.previous signal) (contextOf signal p) action ∧
    delivered = (afterCapture room action p).run q ∧
    (endState delivered).chain = some c ∧ (endState delivered).site.host = q.site.host

theorem afterCapture_spent {Q : ChainState σ → σ → Prop} (room : Nat) {d : Disposition}
    (context : FaultContext) (p : Machine σ) {q : Machine σ} (hd : d.handler ≠ .chain)
    (hq : Spent Q q.view) :
    let action := invokePrevious (.withRoom room) d context
    Spent Q (endState ((afterCapture room action p).run q)).view := by
  have hk := Kernel.withRoom_reliable (spent_withstands Q)
  have hleave : Upholds False (Spent Q) (modify (Kernel.leave p) : Exec σ PUnit) :=
    .change (fun _ h => h) False.elim
  have hrest : Upholds False (Spent Q)
      (afterCapture room (invokePrevious (.withRoom room) d context) p) :=
    (invokePrevious_upholds (hk room) fun h => absurd h hd).bind fun _ =>
      hleave.bind fun _ => (hk (room + 1)).settle
  exact (hrest q False.elim hq).view

/-- Only a signal that is not handled can end the process on the way into the chain's handler. -/
theorem settle_error {room : Nat} {signal : SignalNumber} {p p' : Machine σ} {ending : Ending}
    (h : (Kernel.withRoom (room + 1)).settle.run (Kernel.enter signal .chain p.site.env.stack p) =
      .error ending p') : ∃ other ∈ p.thread.pending, other ∉ Descriptor.codes := by
  change (Kernel.deliverPending (.withRoom room)).run _ = _ at h
  unfold Kernel.deliverPending at h
  rw [run_get] at h
  cases hnext : (Kernel.enter signal .chain p.site.env.stack p).thread.next? with
  | none =>
    rw [hnext] at h
    cases h
  | some other =>
    obtain ⟨hpending, hblocked⟩ := Kernel.mem_of_next? hnext
    rw [Kernel.pending_enter] at hpending
    exact ⟨other, hpending, fun hcodes =>
      hblocked (Kernel.masked_enter_chain signal p.site.env.stack p other hcodes)⟩

theorem captures_of_calm {p p₁ : Machine (Tallied σ)} {c : ChainState (Tallied σ)}
    (context : FaultContext) (h : Calm c p.dispositions p.site.host p₁.view)
    (hmarks : p₁.site.env.marks = p.site.env.marks) :
    Captures c context p p₁ (captured c context p₁) := by
  obtain ⟨hdisp, hchain, hhost⟩ := View.mk.inj (view_captured c context p₁)
  refine ⟨h.chain, h.handled, h.host, captureFault_run c context p₁, fun handler hhandler => ?_,
    fun s hs => ?_, hchain.trans h.chain, fun balanced => ?_⟩
  · rw [hhost, hhandler]
    change p₁.site.host.faults ++ _ = _
    have hsame : p₁.site.host = p.site.host := h.host
    rw [hsame]
  · rw [hdisp]
    exact if_pos hs
  · rw [depth_captured balanced, hmarks]

theorem act_isCaptured (room : Nat) {signal : SignalNumber} {p : Machine (Tallied σ)}
    {c : ChainState (Tallied σ)} (h : Sound p.view) (hc : p.chain = some c)
    (hown : (p.dispositions signal).handler = .chain) :
    IsCaptured room c signal p ((Kernel.act (.withRoom (room + 1)) signal).run p) := by
  have hwhole : p.dispositions signal = .chain := h.whole signal hown
  have hcodes := h.mem_codes hown
  have hreset : Kernel.reset signal .chain p = p := rfl
  have hact : (Kernel.act (.withRoom (room + 1)) signal).run p =
      (Kernel.runHandler (.withRoom (room + 1)) signal .chain).run p := by
    unfold Kernel.act
    rw [run_get, hwhole]
    rfl
  rw [hact, Kernel.runHandler_run, hreset]
  have hcalm := settle_calm (room + 1) signal hc h.others
  cases hrun : (Kernel.withRoom (room + 1)).settle.run
      (Kernel.enter signal .chain p.site.env.stack p) with
  | error ending p' =>
    rw [run_bind_error hrun]
    rw [hrun] at hcalm
    exact .inl ⟨ending, p', rfl, hcalm.view.host, settle_error hrun⟩
  | ok _ p₁ =>
    rw [run_bind_ok hrun]
    rw [hrun] at hcalm
    have hentered : Calm c p.dispositions p.site.host p₁.view := hcalm.view
    have hown₁ : p₁.dispositions signal = .chain := (hentered.handled signal hcodes).trans hwhole
    have hcaptures := captures_of_calm (contextOf signal p) hentered
      (hcalm.resumes trivial _ p₁ rfl).marks
    have hforeign := captured_foreign (contextOf signal p) (h.previous c hc) hentered.others
    have hhandled := onSignal_eq (.withRoom room) (contextOf signal p) hentered.chain hcodes
      hown₁
    rw [run_bind_ok (captureFault_run c _ p₁)] at hhandled
    generalize captured c (contextOf signal p) p₁ = q at hcaptures hforeign hhandled
    have hq : Spent (fun c' host => c' = c ∧ host = q.site.host) q.view :=
      ⟨⟨c, hcaptures.chain, rfl, rfl⟩, hforeign⟩
    obtain ⟨c', hc', rfl, hhost⟩ :=
      (afterCapture_spent room (contextOf signal p) p (h.previous c hc signal) hq).attached
    have hsame := run_bind_congr hhandled fun _ => do
      modify (Kernel.leave p)
      (Kernel.withRoom (room + 1)).settle
    refine .inr ⟨p₁, q, _, hcaptures, invokePrevious_remembered _ _ _, hsame, ?_, ?_⟩
    · exact (congrArg (fun r => (endState r).chain) hsame).trans hc'
    · exact (congrArg (fun r => (endState r).site.host) hsame).trans hhost

/-- How a signal comes to the running thread. -/
inductive Delivery
  | sent
  | trapped

namespace Delivery

def run (k : Kernel σ) (signal : SignalNumber) : Delivery → Exec σ Unit
  | .sent => Kernel.send k signal
  | .trapped => Kernel.trapInto k signal

theorem run_eq_act (delivery : Delivery) (k : Kernel σ) {signal : SignalNumber} {p : Machine σ}
    (hcodes : signal ∈ Descriptor.codes) (hblocked : signal ∉ p.thread.blocked)
    (hown : (p.dispositions signal).handler = .chain) :
    (delivery.run k signal).run p = (Kernel.act k signal).run p := by
  cases delivery with
  | sent =>
    exact (Kernel.send_run k hcodes p).trans (if_neg hblocked)
  | trapped =>
    unfold run Kernel.trapInto
    rw [run_get]
    exact congrArg (EStateM.run · p) (if_neg (by simp [hblocked, hown]))

theorem upholds {masked : Prop} {P : View σ → Prop} {ready : SignalNumber → View σ → Prop}
    (inv : Kernel.Withstands masked P ready) (delivery : Delivery) (room : Nat)
    (signal : SignalNumber) : Upholds masked P (delivery.run (.withRoom room) signal) := by
  have hk := Kernel.withRoom_reliable inv room
  cases delivery with
  | sent => exact Kernel.send_upholds inv hk signal
  | trapped => exact Kernel.trapInto_upholds inv hk signal

end Delivery

/-- What may happen in a process. Others set what they want to, but not the chain's own handler.
Signals that were sent while they were blocked may be released. -/
inductive Act (σ : Type)
  | attach (handler : FaultHandler σ)
  | detach
  | install (signal : SignalNumber) (d : Disposition) (foreign : d.handler ≠ .chain)
  | deliver (delivery : Delivery) (room : Nat) (signal : SignalNumber)
  | release (room : Nat)
  | elsewhere (f : Machine (Tallied σ) → Machine (Tallied σ))
      (keeps : ∀ p, (f p).dispositions = p.dispositions ∧ (f p).chain = p.chain ∧
        (f p).site.host.attached = p.site.host.attached ∧
        (f p).site.host.faults = p.site.host.faults)

def countAttached (p : Machine (Tallied σ)) : Machine (Tallied σ) :=
  { p with site.host.attached := p.site.host.attached + 1 }

namespace Act

def run : Act σ → Exec (Tallied σ) Unit
  | .attach handler => do
    match ← (Chain.attach handler.tallied : MachineM (Tallied σ) _) with
    | .ok () => modify countAttached
    | .error _ => pure ()
  | .detach => (Chain.detach : MachineM (Tallied σ) Unit)
  | .install signal d _ => modify (·.setDisposition signal d)
  | .deliver delivery room signal => delivery.run (.withRoom room) signal
  | .release room => (Kernel.withRoom room).settle
  | .elsewhere f _ => modify f

end Act

def runActs : List (Act σ) → Exec (Tallied σ) Unit
  | [] => pure ()
  | act :: acts => do
    act.run
    runActs acts

theorem runActs_upholds {P : View (Tallied σ) → Prop} {acts : List (Act σ)}
    (h : ∀ act ∈ acts, Upholds False P act.run) : Upholds False P (runActs acts) := by
  induction acts with
  | nil => exact .pure ()
  | cons act acts ih =>
    have hacts : ∀ a ∈ acts, Upholds False P a.run := fun a ha => h a (List.mem_cons_of_mem _ ha)
    exact (h act List.mem_cons_self).bind fun _ => ih hacts

/-- What is upheld by all acts but detaching holds until there is one. -/
theorem endState_runActs {P : View (Tallied σ) → Prop}
    (h : ∀ act : Act σ, act ≠ .detach → Upholds False P act.run) {acts : List (Act σ)}
    (hacts : Act.detach ∉ acts) {p p' : Machine (Tallied σ)} (hp : P p.view)
    (hrun : (runActs acts).run p = .ok () p') : P p'.view := by
  have hupholds : Upholds False P (runActs acts) := runActs_upholds fun act hact =>
    h act fun hdetach => hacts (hdetach ▸ hact)
  have hlast := (hupholds p False.elim hp).view
  rw [hrun] at hlast
  exact hlast

theorem Sound.congr {v v' : View (Tallied σ)} (h : Sound v)
    (hdisp : v'.dispositions = v.dispositions)
    (hchain : v'.chain = v.chain) (hattached : v'.host.attached = v.host.attached)
    (hfaults : v'.host.faults = v.host.faults) : Sound v' := by
  obtain ⟨hothers, hwhole, hnone, hprevious, hhandler, hbound, harmed⟩ := h
  constructor <;> simp only [hdisp, hchain, hattached, hfaults] <;> assumption

theorem Act.run_attach_cases (handler : FaultHandler σ) (p : Machine (Tallied σ)) :
    (Act.attach handler).run.run p = .ok () p ∨
    p.chain = none ∧ ∃ altstack p', (Act.attach handler).run.run p = .ok () p' ∧
      p'.view = ⟨fun s => if s ∈ Descriptor.codes then .chain else p.dispositions s,
        some ⟨p.dispositions, altstack, handler.tallied⟩,
        { p.site.host with attached := p.site.host.attached + 1 }⟩ := by
  rcases attach_cases handler.tallied p with ⟨e, hrun⟩ | ⟨hnone, altstack, q, hrun, hview⟩
  · exact .inl (run_lift_bind hrun _)
  · obtain ⟨hdisp, hchain, hhost⟩ := View.mk.inj hview
    refine .inr ⟨hnone, altstack, countAttached q, run_lift_bind hrun _, ?_⟩
    rw [← hdisp, ← hchain, ← hhost]
    rfl

/-- What withstands deliveries holds after any act, if it does after those that are none. -/
theorem Act.upheld {P : View (Tallied σ) → Prop} {ready : SignalNumber → View (Tallied σ) → Prop}
    (inv : Kernel.Withstands False P ready) {act : Act σ} {p : Machine (Tallied σ)} (h : P p.view)
    (attach : ∀ handler altstack, p.chain = none →
      P ⟨fun s => if s ∈ Descriptor.codes then .chain else p.dispositions s,
        some ⟨p.dispositions, altstack, FaultHandler.tallied handler⟩,
        { p.site.host with attached := p.site.host.attached + 1 }⟩)
    (detach : act = .detach → P (Chain.detach.run p).2.view)
    (elsewhere : ∀ q : Machine (Tallied σ), q.dispositions = p.dispositions → q.chain = p.chain →
      q.site.host.attached = p.site.host.attached → q.site.host.faults = p.site.host.faults →
      P q.view) :
    P (endState (act.run.run p)).view := by
  cases act with
  | attach handler =>
    rcases Act.run_attach_cases handler p with hrun | ⟨hnone, altstack, q, hrun, hview⟩
    · rw [hrun]
      exact h
    · have hattached := attach handler altstack hnone
      rw [← hview] at hattached
      rw [hrun]
      exact hattached
  | detach => exact detach rfl
  | install signal d foreign =>
    have hset := inv.set p.view signal d False.elim foreign h
    change P (p.setDisposition signal d).view
    rw [Machine.view_setDisposition]
    exact hset
  | deliver delivery room signal =>
    exact (delivery.upholds inv room signal p False.elim h).view
  | release room => exact ((Kernel.withRoom_reliable inv room).settle p False.elim h).view
  | elsewhere f keeps =>
    obtain ⟨hdisp, hchain, hattached, hfaults⟩ := keeps p
    exact elsewhere (f p) hdisp hchain hattached hfaults

theorem Act.sound (act : Act σ) {p : Machine (Tallied σ)} (h : Sound p.view) :
    Sound (endState (act.run.run p)).view ∧
      Since p.site.host.faults (endState (act.run.run p)).view := by
  refine Act.upheld (P := fun v => Sound v ∧ Since p.site.host.faults v)
    (sound_withstands p.site.host.faults) ⟨h, .inl rfl⟩ ?_ ?_ ?_
  · intro handler altstack hnone
    exact ⟨h.attach hnone altstack rfl (.inr ⟨⟨handler, rfl⟩, rfl⟩), .inl rfl⟩
  · intro _
    refine ⟨?_, .inl (congrArg Tallied.faults (host_detach p))⟩
    cases hc : p.chain with
    | none =>
      rw [detach_of_none hc]
      exact h
    | some c =>
      rw [detach_of_some hc]
      exact h.detach hc
  · intro q hdisp hchain hattached hfaults
    exact ⟨h.congr hdisp hchain hattached hfaults, .inl hfaults⟩

/-- Once a fault was captured, no more are until the chain is detached. -/
theorem Act.spent {faults : List SignalNumber} (act : Act σ) (hact : act ≠ .detach) :
    Upholds False (Spent fun _ host => host.faults = faults) act.run := by
  intro p _ h
  obtain ⟨c, hc, htold⟩ := h.attached
  refine ⟨Act.upheld (spent_withstands _) h ?_ (fun hdetach => absurd hdetach hact) ?_, False.elim⟩
  · intro handler altstack hnone
    exact absurd (hnone.symm.trans hc) nofun
  · intro q hdisp hchain _ hfaults
    refine ⟨⟨c, hchain.trans hc, hfaults.trans htold⟩, fun s => ?_⟩
    change (q.dispositions s).handler ≠ .chain
    rw [hdisp]
    exact h.foreign s

theorem Act.attached {c : ChainState (Tallied σ)} (act : Act σ) (hact : act ≠ .detach) :
    Upholds False (fun v => v.chain = some c) act.run := by
  intro p _ h
  refine ⟨Act.upheld (attached_withstands c) h ?_ (fun hdetach => absurd hdetach hact) ?_,
    False.elim⟩
  · intro handler altstack hnone
    exact absurd (hnone.symm.trans h) nofun
  · intro q _ hchain _ _
    exact hchain.trans h

theorem detach_of_spent {Q : ChainState σ → σ → Prop} {p : Machine σ} (h : Spent Q p.view) :
    (detach.run p).2.dispositions = p.dispositions := by
  obtain ⟨c, hc, -⟩ := h.attached
  have hdetached := congrArg View.dispositions (detach_of_some (p := p) hc)
  refine hdetached.trans (funext fun s => if_neg ?_)
  exact fun hown => h.foreign s hown.2

theorem sound_initial {p : Machine (Tallied σ)} (unattached : p.chain = none)
    (foreign : ∀ s, (p.dispositions s).handler ≠ .chain) (untold : p.site.host.faults = []) :
    Sound p.view := by
  have hnone : ∀ c, p.view.chain ≠ some c := fun c hc => absurd (unattached.symm.trans hc) nofun
  refine ⟨fun s _ => foreign s, fun s hown => absurd hown (foreign s), fun _ => foreign,
    fun c hc => absurd hc (hnone c), fun c hc => absurd hc (hnone c), ?_,
    fun c hc => absurd hc (hnone c)⟩
  change p.site.host.faults.length ≤ p.site.host.attached
  rw [untold]
  exact Nat.zero_le _

/-- A fault is captured once at most for each time a chain was attached. It leaves in place what was
there before the chain, and nothing of the chain's own is in place from then on. -/
theorem captured_once {p₀ : Machine (Tallied σ)} (unattached : p₀.chain = none)
    (foreign : ∀ s, (p₀.dispositions s).handler ≠ .chain) (untold : p₀.site.host.faults = [])
    (acts : List (Act σ)) :
    let run := (runActs acts).run p₀
    -- no more faults than there were chains, also if the process has ended
    (endState run).site.host.faults.length ≤ (endState run).site.host.attached ∧
    -- a fault is captured in every sound state, be it within a delivery
    (∀ (p : Machine (Tallied σ)) c signal room, Sound p.view → p.chain = some c →
      (p.dispositions signal).handler = .chain →
      IsCaptured room c signal p ((Kernel.act (.withRoom (room + 1)) signal).run p)) ∧
    ∀ p, run = .ok () p → Sound p.view ∧
      (∀ c signal delivery room, p.chain = some c → signal ∈ Descriptor.codes →
        (p.dispositions signal).handler = .chain → signal ∉ p.thread.blocked →
        IsCaptured room c signal p ((Delivery.run (.withRoom (room + 1)) signal delivery).run p)) ∧
      -- what was remembered is what was there when the chain was attached
      (∀ handler p', (Act.attach handler).run.run p = .ok () p' → p.chain = none → p'.chain ≠ none →
        ∃ altstack, ∀ later p'', Act.detach ∉ later → (runActs later).run p' = .ok () p'' →
          p''.chain = some ⟨p.dispositions, altstack, handler.tallied⟩) ∧
      -- after a fault there is nothing to detach
      (∀ act p', (Act.run act).run p = .ok () p' → p'.site.host.faults ≠ p.site.host.faults →
        (∃ s ∈ Descriptor.codes, p'.site.host.faults = p.site.host.faults ++ [s]) ∧
        ∀ later p'', Act.detach ∉ later → (runActs later).run p' = .ok () p'' →
          p''.site.host.faults = p'.site.host.faults ∧
          (detach.run p'').2.dispositions = p''.dispositions) := by
  intro run
  have hacts : Upholds False Sound (runActs acts) :=
    runActs_upholds fun act _ p _ h => ⟨(act.sound h).1, False.elim⟩
  have hsound : Sound (endState run).view :=
    (hacts p₀ False.elim (sound_initial unattached foreign untold)).view
  refine ⟨hsound.bound, fun p c signal room => act_isCaptured room, fun p hrun => ?_⟩
  rw [hrun] at hsound
  change Sound p.view at hsound
  refine ⟨hsound, fun c signal delivery room hc hcodes hown hblocked => ?_,
    fun handler p' hattach hnone hsome => ?_, fun act p' hact hgrew => ?_⟩
  · rw [delivery.run_eq_act _ hcodes hblocked hown]
    exact act_isCaptured room hsound hc hown
  · rcases Act.run_attach_cases handler p with hkept | ⟨-, altstack, q, hattached, hview⟩
    · rw [hkept] at hattach
      cases hattach
      exact absurd hnone hsome
    · rw [hattached] at hattach
      cases hattach
      refine ⟨altstack, fun later p'' hlater hrun' => ?_⟩
      exact endState_runActs (fun act => act.attached) hlater (congrArg View.chain hview) hrun'
  · have hsince := (act.sound hsound).2
    rw [hact] at hsince
    rcases hsince with hsame | ⟨s, hs, hadded, hattached, hforeign⟩
    · exact absurd hsame hgrew
    · refine ⟨⟨s, hs, hadded⟩, fun later p'' hlater hrun' => ?_⟩
      obtain ⟨c, hc⟩ := Option.ne_none_iff_exists'.1 hattached
      have hspent : Spent (fun _ host => host.faults = p'.site.host.faults) p'.view :=
        ⟨⟨c, hc, rfl⟩, hforeign⟩
      have hlast := endState_runActs (fun act => act.spent) hlater hspent hrun'
      obtain ⟨c', -, hfaults⟩ := hlast.attached
      exact ⟨hfaults, detach_of_spent hlast⟩

def untouched : Machine (Tallied Unit) := .initial ⟨(), 0, []⟩ (.fresh ⟨[], []⟩) none ⟨0, 0⟩

theorem untouched_foreign (s : SignalNumber) : (untouched.dispositions s).handler ≠ .chain := by
  refine set_foreign (fun _ => ?_) ?_ s
  · exact nofun
  · exact nofun

/-- A handler is there before the chain, which is told of the fault, and then it is called. -/
def segvActs : List (Act Unit) :=
  [.install .segv ⟨.other ⟨"older", true, .returns⟩, .none, []⟩ nofun,
    .attach fun _ => pure .invokePrevious, .deliver .sent 3 .segv, .deliver .sent 3 .segv]

def segvRun : EStateM.Result Ending (Machine (Tallied Unit)) Unit :=
  (runActs segvActs).run untouched

/-- The second signal is not captured. -/
theorem captured_once_segv :
    (endState segvRun).site.host.faults.length ≤ (endState segvRun).site.host.attached ∧
      (endState segvRun).site.host.faults = [.segv] ∧
      (endState segvRun).site.host.attached = 1 := by
  have hnone : untouched.chain = none := rfl
  obtain ⟨hbound, -⟩ := captured_once hnone untouched_foreign rfl segvActs
  have hhost : (endState segvRun).site.host.faults = [.segv] ∧
      (endState segvRun).site.host.attached = 1 := by
    decide +kernel
  unfold segvRun at *
  exact ⟨hbound, hhost⟩

end CrashCapture.Chain
